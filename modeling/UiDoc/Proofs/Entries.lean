import UiDoc.Proofs.Journal

/-!
# Entries of diagnostics

Notes only add entries.  So what has not been written about is not found among the entries, and
whatever has been warned about is.
-/

namespace UiDoc.Diagnostics

variable {log : Diagnostics}

@[simp] theorem mem_entries {entry : Diagnostic} : entry ∈ log.entries ↔ entry ∈ log.reversed := by
  simp only [entries, List.mem_reverse]

/-- There is no entry of such a kind. -/
def Free (of : DiagnosticKind → Prop) (log : Diagnostics) : Prop :=
  ∀ entry ∈ log.reversed, ¬ of entry.kind

/-- Of whatever has been warned about there is an entry. -/
def Listed (log : Diagnostics) : Prop :=
  ∀ kind site, (kind, site) ∈ log.warned → ∃ entry ∈ log.reversed, entry.kind = kind

theorem free_empty (of : DiagnosticKind → Prop) : empty.Free of := nofun

theorem listed_empty : empty.Listed := nofun

variable {of : DiagnosticKind → Prop}

theorem Free.record (free : log.Free of) {kind : DiagnosticKind} (other : ¬ of kind)
    (site message : String) : (log.record kind site message).Free of := by
  intro entry member
  rcases List.mem_cons.1 member with rfl | earlier
  · exact other
  · exact free entry earlier

/-- A note about anything else leaves no such entry. -/
theorem Free.write (free : log.Free of) {note : Note} (other : ¬ of note.kind) :
    (note.write log).Free of := by
  cases note with
  | each kind site message => exact free.record other site message
  | once kind site message =>
      simp only [Note.write, warnOnce]
      split
      · exact free
      · exact Free.record free other site message

theorem Free.writeAll (free : log.Free of) {notes : List Note}
    (other : ∀ note ∈ notes, ¬ of note.kind) : (Note.writeAll notes log).Free of := by
  induction notes generalizing log with
  | nil => exact free
  | cons note rest ih =>
      simp only [List.mem_cons, forall_eq_or_imp] at other
      exact ih (free.write other.1) other.2

theorem Listed.write (listed : log.Listed) (note : Note) : (note.write log).Listed := by
  have further {first : Diagnostic} {kind : DiagnosticKind}
      (found : ∃ entry ∈ log.reversed, entry.kind = kind) :
      ∃ entry ∈ first :: log.reversed, entry.kind = kind := by
    rcases found with ⟨entry, member, same⟩
    exact ⟨entry, List.mem_cons_of_mem _ member, same⟩
  cases note with
  | each kind site message => exact fun other place known => further (listed other place known)
  | once kind site message =>
      simp only [Note.write, warnOnce]
      split
      · exact listed
      · intro other place known
        rcases List.mem_cons.1 known with same | earlier
        · cases same
          exact ⟨_, List.mem_cons_self .., rfl⟩
        · exact further (listed other place earlier)

theorem Listed.writeAll (listed : log.Listed) (notes : List Note) :
    (Note.writeAll notes log).Listed := by
  induction notes generalizing log with
  | nil => exact listed
  | cons note rest ih => exact ih (listed.write note)

/-! ## Entries about a place -/

/-- There is an entry of the kind about the place. -/
def Reports (kind : DiagnosticKind) (site : String) (log : Diagnostics) : Prop :=
  ∃ entry ∈ log.entries, entry.kind = kind ∧ entry.site = site

/-- Of whatever has been warned about there is an entry, about the same place. -/
def Complete (log : Diagnostics) : Prop :=
  ∀ kind site, (kind, site) ∈ log.warned → log.Reports kind site

theorem complete_empty : empty.Complete := nofun

theorem reports_record (kind : DiagnosticKind) (site message : String) (log : Diagnostics) :
    (log.record kind site message).Reports kind site :=
  ⟨⟨kind, site, message⟩, mem_entries.2 (List.mem_cons_self ..), rfl, rfl⟩

variable {kind : DiagnosticKind} {site : String}

theorem Reports.record (reports : log.Reports kind site) (other : DiagnosticKind)
    (place message : String) : (log.record other place message).Reports kind site := by
  obtain ⟨entry, member, same⟩ := reports
  exact ⟨entry, mem_entries.2 (List.mem_cons_of_mem _ (mem_entries.1 member)), same⟩

/-- An entry is never lost. -/
theorem Reports.write (reports : log.Reports kind site) (note : Note) :
    (note.write log).Reports kind site := by
  cases note with
  | each other place message => exact reports.record other place message
  | once other place message =>
      simp only [Note.write, warnOnce]
      split
      · exact reports
      · exact Reports.record reports other place message

theorem Reports.writeAll (reports : log.Reports kind site) (notes : List Note) :
    (Note.writeAll notes log).Reports kind site := by
  induction notes generalizing log with
  | nil => exact reports
  | cons note rest ih => exact ih (reports.write note)

theorem Complete.write (complete : log.Complete) (note : Note) : (note.write log).Complete := by
  cases note with
  | each other place message =>
      exact fun kind site known => (complete kind site known).record other place message
  | once other place message =>
      simp only [Note.write, warnOnce]
      split
      · exact complete
      · intro kind site known
        rcases List.mem_cons.1 known with same | earlier
        · cases same
          exact reports_record other place message log
        · exact (complete kind site earlier).record other place message

theorem Complete.writeAll (complete : log.Complete) (notes : List Note) :
    (Note.writeAll notes log).Complete := by
  induction notes generalizing log with
  | nil => exact complete
  | cons note rest ih => exact ih (complete.write note)

/-- Of a warning there is an entry, whether it is the first one or not. -/
theorem Complete.reports_warnOnce (complete : log.Complete) (kind : DiagnosticKind)
    (site message : String) : (log.warnOnce kind site message).Reports kind site := by
  simp only [warnOnce]
  split
  · exact complete kind site ‹_›
  · exact reports_record kind site message log

/-! ## First warnings -/

/-- A first warning of a kind is the last entry. -/
theorem warnOnce_of_free {kind : DiagnosticKind} (listed : log.Listed) (free : log.Free (· = kind))
    (site message : String) :
    (log.warnOnce kind site message).entries = log.entries ++ [⟨kind, site, message⟩] := by
  have new : (kind, site) ∉ log.warned := by
    intro known
    rcases listed kind site known with ⟨entry, member, same⟩
    exact free entry member same
  simp only [warnOnce, if_neg new, entries, Diagnostics.record, List.reverse_cons]

end UiDoc.Diagnostics
