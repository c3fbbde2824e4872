import UiDoc.Document.Encoder
import UiDoc.Proofs.Json.Recovery

/-!
# Decoding records that have been encoded

The fields of a record are decoded one after another.  So a property of the record holds if every
single field keeps it, and the fields of an encoded record are read one by one, whichever of them
were left out.
-/

namespace UiDoc.Json

theorem name_of_mem_field? {α : Type} {name : String} {encode : α → Json} {o : Option α}
    {field : String × Json} (member : field ∈ field? name encode o) : field.1 = name := by
  cases o with
  | none => cases member
  | some x =>
      rw [List.mem_singleton.1 member]

namespace Decoder

variable {α β : Type}

/-! ## What every field keeps -/

/-- Setting the field keeps a property of the record. -/
def Field.Keeps (field : Field α) (holds : α → Prop) : Prop :=
  ∀ mode d set, field.read mode d = .ok set → ∀ x, holds x → holds (set x)

namespace Field

variable {holds : α → Prop} {name : String} {decoder : Decoder β} {set : β → α → α}

theorem keeps_optional
    (keeps : ∀ mode d y, decoder mode d = .ok y → ∀ x, holds x → holds (set y x)) :
    (optional name decoder set).Keeps holds := by
  intro mode d change read
  rcases map_eq_ok.1 read with ⟨y, reads, rfl⟩
  exact keeps mode d y reads

theorem keeps_mandatory
    (keeps : ∀ mode d y, decoder mode d = .ok y → ∀ x, holds x → holds (set y x)) :
    (mandatory name decoder set).Keeps holds := by
  have asOptional : (optional name decoder set).Keeps holds := keeps_optional keeps
  exact asOptional

end Field

namespace Layout

variable {layout : Layout α} {holds : α → Prop}

/-- Whatever else is taken in keeps a property of the record. -/
def OthersKeep (layout : Layout α) (holds : α → Prop) : Prop :=
  ∀ other, layout.other = some other →
    ∀ name, layout.fields.find? (·.hasName name) = none →
      ∀ mode d set, other name mode d = .ok set → ∀ x, holds x → holds (set x)

theorem OthersKeep.of_none (nothing : layout.other = none) : layout.OthersKeep holds := by
  intro other takes
  rw [nothing] at takes
  cases takes

theorem holds_of_named (fields : ∀ field ∈ layout.fields, field.Keeps holds)
    (others : layout.OthersKeep holds) {mode : Mode} {drafts : List (Option String × Draft)}
    {seen last : List String} {x y : α} (start : holds x)
    (decoded : layout.named mode seen x drafts = .ok (last, y)) : holds y := by
  induction drafts generalizing seen x with
  | nil =>
      simp only [named, Except.ok.injEq, Prod.mk.injEq] at decoded
      exact decoded.2 ▸ start
  | cons draft rest ih =>
      obtain ⟨name, d⟩ := draft
      simp only [named, bind_eq_ok] at decoded
      obtain ⟨name, -, decoded⟩ := decoded
      split at decoded
      · rename_i field found
        split at decoded
        · cases decoded
        · obtain ⟨set, read, decoded⟩ := bind_eq_ok.1 decoded
          have member := List.mem_of_find?_eq_some found
          exact ih (fields field member mode d set read x start) decoded
      · rename_i other unknown takes
        obtain ⟨set, read, decoded⟩ := bind_eq_ok.1 decoded
        exact ih (others other takes name unknown mode d set read x start) decoded
      · obtain ⟨-, -, decoded⟩ := bind_eq_ok.1 decoded
        exact ih start decoded

theorem holds_of_positional {mode : Mode} {ending : Ending} {items : List Draft}
    {fields missing : List (Field α)} (keep : ∀ field ∈ fields, field.Keeps holds) {x y : α}
    (start : holds x) (decoded : positional mode ending fields x items = .ok (missing, y)) :
    holds y := by
  induction items generalizing fields x with
  | nil =>
      cases ending <;>
        simp only [positional, Except.ok.injEq, Prod.mk.injEq, reduceCtorEq] at decoded
      exact decoded.2 ▸ start
  | cons item rest ih =>
      cases fields with
      | nil => simp [positional] at decoded
      | cons field fields =>
          simp only [positional, bind_eq_ok] at decoded
          obtain ⟨set, read, decoded⟩ := decoded
          have later : ∀ field ∈ fields, field.Keeps holds :=
            fun field member => keep field (List.mem_cons_of_mem _ member)
          exact ih later (keep field (List.mem_cons_self ..) mode item set read x start) decoded

/-- A property of the empty record that every field keeps holds of whatever is decoded. -/
theorem holds_of_decoder (start : holds layout.start)
    (fields : ∀ field ∈ layout.fields, field.Keeps holds) (others : layout.OthersKeep holds)
    {mode : Mode} {d : Draft} {x : α} (decoded : layout.decoder mode d = .ok x) : holds x := by
  simp only [decoder] at decoded
  split at decoded
  · obtain ⟨inner, -, decoded⟩ := bind_eq_ok.1 decoded
    rcases bind_eq_ok.1 decoded with ⟨⟨seen, y⟩, read, decoded⟩
    obtain ⟨-, -, decoded⟩ := bind_eq_ok.1 decoded
    split at decoded
    · cases decoded
      exact holds_of_named fields others start read
    · cases decoded
  · obtain ⟨inner, -, decoded⟩ := bind_eq_ok.1 decoded
    rcases bind_eq_ok.1 decoded with ⟨⟨missing, y⟩, read, decoded⟩
    cases lacking : missing.any (·.required) with
    | true => simp [lacking] at decoded
    | false =>
        simp only [lacking, Bool.false_eq_true, if_false, Except.ok.injEq] at decoded
        exact decoded ▸ holds_of_positional fields start read
  · cases decoded

/-! ## Reading encoded fields -/

/-- Reading the fields leads from one record to another, if those named in `needed` have been read
before and no others than those named in `past`. -/
def Reads (layout : Layout α) (needed past : List String) (x : α) (fields : List (String × Json))
    (y : α) : Prop :=
  ∀ seen, needed ⊆ seen → seen ⊆ past →
    ∃ last, layout.named .whole seen x (Draft.ofFields fields) = .ok (last, y) ∧
      ∀ field ∈ layout.fields, field.required = true → field.name ∈ last

theorem mem_seen_of_named {mode : Mode} {fields : List (String × Json)}
    {seen last : List String} {x y : α} {name : String}
    (decoded : layout.named mode seen x (Draft.ofFields fields) = .ok (last, y))
    (member : name ∈ last) :
    name ∈ seen ∨ ∃ written ∈ fields, ∃ field,
      layout.fields.find? (·.hasName written.1) = some field ∧ field.name = name := by
  induction fields generalizing seen x with
  | nil =>
      simp only [Draft.ofFields, named, Except.ok.injEq, Prod.mk.injEq] at decoded
      exact .inl (decoded.1 ▸ member)
  | cons first rest ih =>
      have earlier : (∃ written ∈ rest, ∃ field,
            layout.fields.find? (·.hasName written.1) = some field ∧ field.name = name) →
          ∃ written ∈ first :: rest, ∃ field,
            layout.fields.find? (·.hasName written.1) = some field ∧ field.name = name := by
        rintro ⟨written, among, known⟩
        exact ⟨written, List.mem_cons_of_mem first among, known⟩
      simp only [Draft.ofFields, named, Draft.useName, bind_eq_ok, Except.ok.injEq,
        exists_eq_left'] at decoded
      split at decoded
      · rename_i field found
        split at decoded
        · cases decoded
        · obtain ⟨set, -, decoded⟩ := bind_eq_ok.1 decoded
          rcases ih decoded with known | known
          · rcases List.mem_cons.1 known with same | known
            · exact .inr ⟨first, List.mem_cons_self .., field, found, same.symm⟩
            · exact .inl known
          · exact .inr (earlier known)
      · obtain ⟨set, -, decoded⟩ := bind_eq_ok.1 decoded
        exact (ih decoded).imp_right earlier
      · obtain ⟨-, -, decoded⟩ := bind_eq_ok.1 decoded
        exact (ih decoded).imp_right earlier

/-- An object without a field that has to be there is refused. -/
theorem decode_ne_ok_of_missing {fields : List (String × Json)} {field : Field α}
    (member : field ∈ layout.fields) (required : field.required = true)
    (missing : ∀ written ∈ fields, ∀ other,
      layout.fields.find? (·.hasName written.1) = some other → other.name ≠ field.name) (x : α) :
    decode layout.decoder (.obj fields) ≠ .ok x := by
  intro decoded
  simp only [decode, Draft.ofJson, decoder, Mode.enter_whole, bind_eq_ok, Except.ok.injEq,
    exists_eq_left'] at decoded
  rcases decoded with ⟨⟨last, y⟩, read, -, -, decoded⟩
  split at decoded
  · rename_i complete
    simp only [List.all_eq_true, Bool.or_eq_true, List.contains_iff_mem] at complete
    have known : field.name ∈ last := by simpa [required] using complete field member
    rcases mem_seen_of_named read known with early | ⟨written, among, other, found, same⟩
    · cases early
    · exact missing written among other found same
  · cases decoded

/-- An object is decoded by reading its fields. -/
theorem decode_obj {fields : List (String × Json)} {x : α}
    (reads : layout.Reads [] [] layout.start fields x) :
    decode layout.decoder (.obj fields) = .ok x := by
  obtain ⟨last, named, complete⟩ := reads [] (List.nil_subset _) (List.nil_subset _)
  have whole : ∀ d : Draft, d = .obj (Draft.ofFields fields) .closed →
      layout.decoder .whole d = .ok x := by
    rintro - rfl
    simpa [decoder, named, bind, Except.bind] using complete
  exact whole _ rfl

namespace Reads

variable {needed past : List String} {x y z : α} {name : String} {v : Json}
  {fields : List (String × Json)}

theorem nil (complete : ∀ field ∈ layout.fields, field.required = true → field.name ∈ needed) :
    layout.Reads needed past x [] x := by
  intro seen read _
  exact ⟨seen, rfl, fun field member required => read (complete field member required)⟩

theorem last {piece : List (String × Json)} (reads : layout.Reads needed past x (piece ++ []) y) :
    layout.Reads needed past x piece y := by
  rwa [List.append_nil] at reads

/-- A field that has been left out may count as read. -/
theorem skip (reads : layout.Reads needed (name :: past) x fields y) :
    layout.Reads needed past x fields y :=
  fun seen read known => reads seen read (List.subset_cons_of_subset _ known)

/-- A field that is there is read before the others. -/
theorem cons {field : Field α} {set : α → α}
    (found : layout.fields.find? (·.hasName name) = some field) (same : field.name = name)
    (fresh : name ∉ past) (read : field.read .whole (Draft.ofJson v) = .ok set)
    (rest : layout.Reads (name :: needed) (name :: past) (set x) fields y) :
    layout.Reads needed past x ((name, v) :: fields) y := by
  intro seen known few
  have new : name ∉ seen := fun member => fresh (few member)
  obtain ⟨last, named, complete⟩ :=
    rest (name :: seen) (List.cons_subset_cons _ known) (List.cons_subset_cons _ few)
  refine ⟨last, ?_, complete⟩
  simp [Draft.ofFields, Layout.named, Draft.useName, found, same, new, read, named, bind,
    Except.bind]

/-- A field that need not have been read is read like one that need. -/
theorem weaken (reads : layout.Reads needed past x fields y) :
    layout.Reads (name :: needed) past x fields y :=
  fun seen read known => reads seen (List.Subset.trans (List.subset_cons_self _ _) read) known

/-- A field with a name of its own is taken in before the others are read. -/
theorem other {take : String → Decoder (α → α)} {set : α → α} (takes : layout.other = some take)
    (unknown : layout.fields.find? (·.hasName name) = none)
    (read : take name .whole (Draft.ofJson v) = .ok set)
    (rest : layout.Reads needed past (set x) fields y) :
    layout.Reads needed past x ((name, v) :: fields) y := by
  intro seen known few
  obtain ⟨last, named, complete⟩ := rest seen known few
  refine ⟨last, ?_, complete⟩
  simp [Draft.ofFields, Layout.named, Draft.useName, unknown, takes, read, named, bind, Except.bind]

/-! ## The fields that encoders write -/

variable {decoder : Decoder β} {encode : β → Json} {b : β}

theorem mandatory {set : β → α → α}
    (found : layout.fields.find? (·.hasName name) = some (.mandatory name decoder set))
    (fresh : name ∉ past) (recovered : decode decoder v = .ok b)
    (rest : layout.Reads (name :: needed) (name :: past) (set b x) fields y) :
    layout.Reads needed past x ((name, v) :: fields) y :=
  .cons found rfl fresh (map_eq_ok.2 ⟨b, recovered, rfl⟩) rest

theorem optional {set : β → α → α}
    (found : layout.fields.find? (·.hasName name) = some (.optional name decoder set))
    (fresh : name ∉ past) (recovered : decode decoder v = .ok b)
    (rest : layout.Reads needed (name :: past) (set b x) fields y) :
    layout.Reads needed past x ((name, v) :: fields) y :=
  .cons found rfl fresh (map_eq_ok.2 ⟨b, recovered, rfl⟩) rest.weaken

theorem option {field : Field α} {o : Option β}
    (found : layout.fields.find? (·.hasName name) = some field) (same : field.name = name)
    (fresh : name ∉ past) (unset : o = none → x = z)
    (set : ∀ b, o = some b →
      ∃ change, field.read .whole (Draft.ofJson (encode b)) = .ok change ∧ change x = z)
    (rest : layout.Reads needed (name :: past) z fields y) :
    layout.Reads needed past x (field? name encode o ++ fields) y := by
  cases o with
  | none => exact unset rfl ▸ rest.skip
  | some b =>
      obtain ⟨change, read, changed⟩ := set b rfl
      exact .cons found same fresh read (changed ▸ rest.weaken)

theorem nullable {set : Option β → α → α} {o : Option β}
    (found : layout.fields.find? (·.hasName name) =
      some (.optional name (Decoder.nullable decoder) set))
    (fresh : name ∉ past) (unset : set none x = x) (proper : ∀ b, encode b ≠ .null)
    (recovered : ∀ b, o = some b → decode decoder (encode b) = .ok b)
    (rest : layout.Reads needed (name :: past) (set o x) fields y) :
    layout.Reads needed past x (field? name encode o ++ fields) y := by
  refine .option found rfl fresh (fun none => by rw [none, unset]) (fun b some => ?_) rest
  have present := decode_nullable (proper b) (recovered b some)
  exact ⟨_, map_eq_ok.2 ⟨_, present, rfl⟩, by rw [some]⟩

/-- A field that is left out where it would change nothing. -/
theorem defaulted {set : β → α → α} {empty : Prop} [Decidable empty]
    (found : layout.fields.find? (·.hasName name) = some (.optional name decoder set))
    (fresh : name ∉ past) (unset : empty → set b x = x) (recovered : decode decoder v = .ok b)
    (rest : layout.Reads needed (name :: past) (set b x) fields y) :
    layout.Reads needed past x ((if empty then [] else [(name, v)]) ++ fields) y := by
  split
  · rename_i holds
    rw [unset holds] at rest
    exact rest.skip
  · exact .optional found fresh recovered rest

theorem text {set : String → α → α} {s : String}
    (found : layout.fields.find? (·.hasName name) = some (.optional name string set))
    (fresh : name ∉ past) (unset : set "" x = x)
    (rest : layout.Reads needed (name :: past) (set s x) fields y) :
    layout.Reads needed past x (textField name s ++ fields) y :=
  .defaulted found fresh (fun empty => by rw [empty, unset]) rfl rest

theorem record {set : Record β → α → α} {r : Record β}
    (found : layout.fields.find? (·.hasName name) =
      some (.optional name (Decoder.record decoder) set))
    (fresh : name ∉ past) (unset : set [] x = x)
    (recovered : decode (Decoder.record decoder) (.obj (r.map fun (key, b) => (key, encode b))) =
      .ok r)
    (rest : layout.Reads needed (name :: past) (set r x) fields y) :
    layout.Reads needed past x (recordField name encode r ++ fields) y :=
  .defaulted found fresh (fun empty => by rw [List.isEmpty_iff.1 empty, unset]) recovered rest

theorem list {set : List β → α → α} {items : List β}
    (found : layout.fields.find? (·.hasName name) =
      some (.optional name (Decoder.list decoder) set))
    (fresh : name ∉ past) (unset : set [] x = x)
    (recovered : decode (Decoder.list decoder) v = .ok items)
    (rest : layout.Reads needed (name :: past) (set items x) fields y) :
    layout.Reads needed past x ((if items.isEmpty then [] else [(name, v)]) ++ fields) y :=
  .defaulted found fresh (fun empty => by rw [List.isEmpty_iff.1 empty, unset]) recovered rest

end Reads

end Layout

end Decoder

end UiDoc.Json
