import UiDoc.Expr.PathForm
import UiDoc.Proofs.Path.Accesses
import UiDoc.Proofs.Text.Classes

/-!
# The parts of paths in expressions

A path of an expression is a name followed by accesses.  If all its white space stands between
quotes, the accesses are written as they are where a path is looked up.
-/

namespace UiDoc.Expr

open UiDoc.Path (Access accessChars accessChars_nil accessChars_cons)

/-! ## Quotes in paths -/

/-- The characters of a text that stand outside of quotes.  Nothing hides a quote. -/
def outsideQuotes : Option Char → List Char → List Char
  | _, [] => []
  | none, c :: cs =>
      if c = '"' ∨ c = '\'' then outsideQuotes (some c) cs else c :: outsideQuotes none cs
  | some mark, c :: cs => outsideQuotes (if c = mark then none else some mark) cs

/-- The texts between quotes, of which the current one is kept in reverse. -/
def betweenQuotes : Option (Char × List Char) → List Char → List (List Char)
  | _, [] => []
  | none, c :: cs =>
      if c = '"' ∨ c = '\'' then betweenQuotes (some (c, [])) cs else betweenQuotes none cs
  | some (mark, key), c :: cs =>
      if c = mark then key.reverse :: betweenQuotes none cs
      else betweenQuotes (some (mark, c :: key)) cs

variable {cs ds part key : List Char} {c mark : Char} {accesses : List Access}

/-! ## The accesses of a path -/

/-- A character of a name or of digits that is not white space. -/
def isPlain (c : Char) : Bool :=
  (PathForm.isNamePart c || Text.isDigit c) && !Text.isBlank c

/-- An access of a path without white space outside of quotes. -/
def Tight : Access → Prop
  | .point name => name ≠ [] ∧ ∀ c ∈ name, isPlain c = true
  | .bracket text => ∀ c ∈ text, isPlain c = true
  | .quoted mark key => mark ∈ ['"', '\''] ∧ ∀ c ∈ key, c ≠ mark

/-- The text consists of tight accesses. -/
def Accessed (cs : List Char) : Prop :=
  ∃ accesses, cs = accessChars accesses ∧ ∀ a ∈ accesses, Tight a

/-- The text consists of the rest of a name and of tight accesses. -/
def NamedOn (cs : List Char) : Prop :=
  ∃ part rest, cs = part ++ rest ∧ (∀ c ∈ part, isPlain c = true) ∧ Accessed rest

theorem Accessed.cons {a : Access} (tight : Tight a) (accessed : Accessed cs) :
    Accessed (a.chars ++ cs) := by
  obtain ⟨accesses, rfl, all⟩ := accessed
  exact ⟨a :: accesses, rfl, List.forall_mem_cons.2 ⟨tight, all⟩⟩

theorem NamedOn.cons (plain : isPlain c = true) (named : NamedOn cs) : NamedOn (c :: cs) := by
  obtain ⟨part, rest, rfl, all, accessed⟩ := named
  exact ⟨c :: part, rest, rfl, List.forall_mem_cons.2 ⟨plain, all⟩, accessed⟩

theorem Accessed.named (accessed : Accessed cs) : NamedOn cs :=
  ⟨[], cs, rfl, nofun, accessed⟩

/-- What follows in a tight path, as far as it has been read. -/
def Follows : PathForm.State → List Char → Prop
  | .name, cs | .digits, cs => NamedOn cs
  | .closed, cs => Accessed cs
  | .point, cs => ∃ c rest, cs = c :: rest ∧ isPlain c = true ∧ NamedOn rest
  | .opened, cs => Accessed ('[' :: cs)
  | .index, cs =>
      ∃ digits rest, cs = digits ++ ']' :: rest ∧ (∀ c ∈ digits, isPlain c = true) ∧ Accessed rest
  | .quoted mark, cs =>
      ∃ key rest, cs = key ++ mark :: ']' :: rest ∧ (∀ c ∈ key, c ≠ mark) ∧ Accessed rest
  | .full, cs => ∃ rest, cs = ']' :: rest ∧ Accessed rest
  | .beforePoint, _ | .afterPoint, _ => True

/-- The quote that is open. -/
def openQuote : PathForm.State → Option Char
  | .quoted mark => some mark
  | _ => none

theorem isPlain_of_digit (digit : Text.isDigit c = true) (filled : Text.isBlank c = false) :
    isPlain c = true := by
  simp [isPlain, digit, filled]

theorem isPlain_of_isNamePart (part : PathForm.isNamePart c = true)
    (filled : Text.isBlank c = false) : isPlain c = true := by
  simp [isPlain, part, filled]

theorem isPlain_of_isPlainStart (start : Text.isPlainStart c = true)
    (filled : Text.isBlank c = false) : isPlain c = true := by
  have each : ∀ c ∈ Text.ascii, Text.isPlainStart c = true → PathForm.isNamePart c = true :=
    Text.forall_of_all (by decide)
  exact isPlain_of_isNamePart (each c (Text.mem_ascii_of_isPlainStart start) start) filled

/-- Outside of quotes, a character is no white space, and neither are those behind it. -/
theorem tight_cons (noQuote : c ∉ ['"', '\''])
    (tight : ∀ d ∈ outsideQuotes none (c :: cs), Text.isBlank d = false) :
    Text.isBlank c = false ∧ ∀ d ∈ outsideQuotes none cs, Text.isBlank d = false := by
  rw [outsideQuotes, if_neg (by simpa using noQuote)] at tight
  exact List.forall_mem_cons.1 tight

/-- What has been read stands in front of what follows, if no white space is outside of quotes. -/
def StepsBack (state next : PathForm.State) (c : Char) (cs : List Char) : Prop :=
  (∀ d ∈ outsideQuotes (openQuote next) cs, Text.isBlank d = false) ∧
    (Follows next cs → Follows state (c :: cs))

section Steps

variable {state next : PathForm.State}

/-- Outside of brackets no quote is read. -/
theorem next_quote : ∀ c ∈ ['"', '\''], ∀ state ∈ [PathForm.State.name, .digits, .closed, .point,
    .index, .full], state.next c = none :=
  Text.forall_of_all (by decide)

/-- Where no quote may stand, the character is none, and it is no white space. -/
theorem tight_of_next (reads : state.next c = some next)
    (plain : state ∈ [PathForm.State.name, .digits, .closed, .point, .index, .full])
    (tight : ∀ d ∈ outsideQuotes none (c :: cs), Text.isBlank d = false) :
    Text.isBlank c = false ∧ ∀ d ∈ outsideQuotes none cs, Text.isBlank d = false := by
  refine tight_cons (fun quote => ?_) tight
  rw [next_quote c quote state plain] at reads
  cases reads

theorem accessed_of_access (accesses : PathForm.State.access c = some next)
    (filled : Text.isBlank c = false)
    (tight : ∀ d ∈ outsideQuotes none cs, Text.isBlank d = false) :
    StepsBack .closed next c cs := by
  unfold PathForm.State.access at accesses
  split at accesses
  next point =>
    cases accesses
    refine ⟨tight, fun follows => ?_⟩
    obtain ⟨d, rest, rfl, plain, part, behind, rfl, parts, accessed⟩ := follows
    subst point
    exact accessed.cons (a := .point (d :: part))
      ⟨List.cons_ne_nil d part, List.forall_mem_cons.2 ⟨plain, parts⟩⟩
  next =>
    split at accesses
    next bracket =>
      cases accesses
      exact ⟨tight, fun follows => bracket ▸ follows⟩
    next =>
      rw [filled] at accesses
      cases accesses

theorem stepsBack_name (reads : PathForm.State.next c .name = some next)
    (tight : ∀ d ∈ outsideQuotes none (c :: cs), Text.isBlank d = false) :
    StepsBack .name next c cs := by
  obtain ⟨filled, tight⟩ := tight_of_next reads (by decide) tight
  simp only [PathForm.State.next] at reads
  split at reads
  next part =>
    cases reads
    exact ⟨tight, fun named => named.cons (isPlain_of_isNamePart part filled)⟩
  next =>
    exact (accessed_of_access reads filled tight).imp_right fun back follows => (back follows).named

theorem stepsBack_digits (reads : PathForm.State.next c .digits = some next)
    (tight : ∀ d ∈ outsideQuotes none (c :: cs), Text.isBlank d = false) :
    StepsBack .digits next c cs := by
  obtain ⟨filled, tight⟩ := tight_of_next reads (by decide) tight
  simp only [PathForm.State.next] at reads
  split at reads
  next digit =>
    cases reads
    exact ⟨tight, fun named => named.cons (isPlain_of_digit digit filled)⟩
  next =>
    exact (accessed_of_access reads filled tight).imp_right fun back follows => (back follows).named

theorem stepsBack_point (reads : PathForm.State.next c .point = some next)
    (tight : ∀ d ∈ outsideQuotes none (c :: cs), Text.isBlank d = false) :
    StepsBack .point next c cs := by
  obtain ⟨filled, tight⟩ := tight_of_next reads (by decide) tight
  simp only [PathForm.State.next, filled] at reads
  split at reads
  next digit =>
    cases reads
    exact ⟨tight, fun named => ⟨c, cs, rfl, isPlain_of_digit digit filled, named⟩⟩
  next =>
    split at reads
    next start =>
      cases reads
      exact ⟨tight, fun named => ⟨c, cs, rfl, isPlain_of_isPlainStart start filled, named⟩⟩
    next => cases reads

theorem stepsBack_opened (reads : PathForm.State.next c .opened = some next)
    (tight : ∀ d ∈ outsideQuotes none (c :: cs), Text.isBlank d = false) :
    StepsBack .opened next c cs := by
  by_cases quote : c = '"' ∨ c = '\''
  · have other : ∀ c ∈ ['"', '\''], Text.isBlank c = false ∧ Text.isDigit c = false :=
      Text.forall_of_all (by decide)
    have listed : c ∈ ['"', '\''] := by simpa using quote
    have opens : PathForm.State.next c .opened = some (.quoted c) := by
      simp [PathForm.State.next, other c listed, quote]
    cases opens.symm.trans reads
    rw [outsideQuotes, if_pos quote] at tight
    refine ⟨tight, ?_⟩
    rintro ⟨key, rest, rfl, noMark, accessed⟩
    have parts : '[' :: c :: (key ++ c :: ']' :: rest) = (Access.quoted c key).chars ++ rest := by
      simp [Access.chars]
    rw [Follows, parts]
    exact accessed.cons ⟨listed, noMark⟩
  · obtain ⟨filled, tight⟩ := tight_cons (by simpa using quote) tight
    simp only [PathForm.State.next, filled, quote] at reads
    split at reads
    next absent => cases absent
    next =>
      split at reads
      next digit =>
        cases reads
        refine ⟨tight, ?_⟩
        rintro ⟨digits, rest, rfl, all, accessed⟩
        have parts : '[' :: c :: (digits ++ ']' :: rest) =
            (Access.bracket (c :: digits)).chars ++ rest := by simp [Access.chars]
        rw [Follows, parts]
        exact accessed.cons (List.forall_mem_cons.2 ⟨isPlain_of_digit digit filled, all⟩)
      next => cases reads

theorem stepsBack_index (reads : PathForm.State.next c .index = some next)
    (tight : ∀ d ∈ outsideQuotes none (c :: cs), Text.isBlank d = false) :
    StepsBack .index next c cs := by
  obtain ⟨filled, tight⟩ := tight_of_next reads (by decide) tight
  simp only [PathForm.State.next, filled] at reads
  split at reads
  next digit =>
    cases reads
    refine ⟨tight, ?_⟩
    rintro ⟨digits, rest, rfl, all, accessed⟩
    exact ⟨c :: digits, rest, rfl, List.forall_mem_cons.2 ⟨isPlain_of_digit digit filled, all⟩,
      accessed⟩
  next =>
    split at reads
    next closes =>
      cases reads
      exact ⟨tight, fun accessed => ⟨[], cs, by rw [closes]; rfl, nofun, accessed⟩⟩
    next => cases reads

theorem stepsBack_quoted (reads : PathForm.State.next c (.quoted mark) = some next)
    (tight : ∀ d ∈ outsideQuotes (some mark) (c :: cs), Text.isBlank d = false) :
    StepsBack (.quoted mark) next c cs := by
  simp only [PathForm.State.next] at reads
  rw [outsideQuotes] at tight
  split at reads
  next closes =>
    cases reads
    rw [if_pos closes] at tight
    refine ⟨tight, ?_⟩
    rintro ⟨rest, rfl, accessed⟩
    exact ⟨[], rest, by rw [closes]; rfl, nofun, accessed⟩
  next other =>
    cases reads
    rw [if_neg other] at tight
    refine ⟨tight, ?_⟩
    rintro ⟨key, rest, rfl, noMark, accessed⟩
    exact ⟨c :: key, rest, rfl, List.forall_mem_cons.2 ⟨other, noMark⟩, accessed⟩

theorem stepsBack_full (reads : PathForm.State.next c .full = some next)
    (tight : ∀ d ∈ outsideQuotes none (c :: cs), Text.isBlank d = false) :
    StepsBack .full next c cs := by
  obtain ⟨filled, tight⟩ := tight_of_next reads (by decide) tight
  simp only [PathForm.State.next, filled] at reads
  split at reads
  next closes =>
    cases reads
    exact ⟨tight, fun accessed => ⟨cs, by rw [closes], accessed⟩⟩
  next => cases reads

end Steps

/-- A path without white space outside of quotes is a name and tight accesses. -/
theorem follows_of_completes {state : PathForm.State} (path : PathForm.completes state cs = true)
    (tight : ∀ c ∈ outsideQuotes (openQuote state) cs, Text.isBlank c = false) :
    Follows state cs := by
  induction cs generalizing state with
  | nil =>
      have none : Accessed [] := ⟨[], rfl, nofun⟩
      cases state with
      | name | digits => exact none.named
      | closed => exact none
      | beforePoint | afterPoint => trivial
      | point | opened | index | quoted | full => cases path
  | cons c cs ih =>
      rw [PathForm.completes] at path
      split at path
      case h_2 => cases path
      case h_1 next reads =>
        -- what follows is known behind the character, and from there one step back
        have back (steps : StepsBack state next c cs) : Follows state (c :: cs) :=
          steps.2 (ih path steps.1)
        cases state with
        | name => exact back (stepsBack_name reads tight)
        | digits => exact back (stepsBack_digits reads tight)
        | closed =>
            obtain ⟨filled, tight⟩ := tight_of_next reads (by decide) tight
            exact back (accessed_of_access reads filled tight)
        | beforePoint | afterPoint => trivial
        | point => exact back (stepsBack_point reads tight)
        | opened => exact back (stepsBack_opened reads tight)
        | index => exact back (stepsBack_index reads tight)
        | quoted mark => exact back (stepsBack_quoted reads tight)
        | full => exact back (stepsBack_full reads tight)

/-- A first name and accesses of a path without white space outside of quotes. -/
structure Parts (head : List Char) (accesses : List Access) : Prop where
  starts : ∃ c rest, head = c :: rest ∧ Text.isPlainStart c = true
  plain : ∀ c ∈ head, isPlain c = true
  tight : ∀ a ∈ accesses, Tight a

theorem exists_parts (path : PathForm.isPath cs = true)
    (tight : ∀ c ∈ outsideQuotes none cs, Text.isBlank c = false) :
    ∃ head accesses, cs = head ++ accessChars accesses ∧ Parts head accesses := by
  cases cs with
  | nil => cases path
  | cons c cs =>
      rw [PathForm.isPath, Bool.and_eq_true] at path
      obtain ⟨start, path⟩ := path
      have noQuote : c ∉ ['"', '\''] := by
        intro quote
        have each : ∀ c ∈ ['"', '\''], Text.isPlainStart c = false := Text.forall_of_all (by decide)
        rw [each c quote] at start
        cases start
      obtain ⟨filled, tight⟩ := tight_cons noQuote tight
      obtain ⟨part, -, rfl, plain, accesses, rfl, all⟩ := follows_of_completes path tight
      exact ⟨c :: part, accesses, rfl, ⟨c, part, rfl, start⟩,
        List.forall_mem_cons.2 ⟨isPlain_of_isPlainStart start filled, plain⟩, all⟩

theorem not_mem_of_isPlain (plain : isPlain c = true) {listed : List Char}
    (foreign : listed.all (!isPlain ·) = true) : c ∉ listed :=
  Text.not_mem_of_all plain foreign

theorem not_blank_of_isPlain (plain : isPlain c = true) : Text.isBlank c = false := by
  simp only [isPlain, Bool.and_eq_true, Bool.not_eq_true'] at plain
  exact plain.2

theorem readable_of_tight {a : Access} (tight : Tight a) : a.Readable := by
  have ends {c : Char} (plain : isPlain c = true) :
      c ≠ '.' ∧ c ≠ '[' ∧ c ≠ ']' ∧ c ∉ ['"', '\''] := by
    have foreign := not_mem_of_isPlain plain
      (by decide : ['.', '[', ']', '"', '\''].all (!isPlain ·) = true)
    simpa using foreign
  cases a with
  | point name =>
      refine ⟨tight.1, fun c member => ?_⟩
      obtain ⟨noPoint, noBracket, -⟩ := ends (tight.2 c member)
      exact ⟨noPoint, noBracket⟩
  | bracket text =>
      exact ⟨fun c member => (ends (tight c member)).2.2.1,
        fun c first => (ends (tight c (List.mem_of_head? first))).2.2.2⟩
  | quoted mark key => exact tight

/-! ## The quoted keys of a path -/

/-- The quoted key of an access. -/
def key? : Access → Option (List Char)
  | .quoted _ key => some key
  | _ => none

theorem betweenQuotes_plain (plain : ∀ c ∈ cs, c ∉ ['"', '\'']) (ds : List Char) :
    betweenQuotes none (cs ++ ds) = betweenQuotes none ds := by
  induction cs with
  | nil => rfl
  | cons c cs ih =>
      obtain ⟨noQuote, plain⟩ := List.forall_mem_cons.1 plain
      rw [List.cons_append, betweenQuotes, if_neg (by simpa using noQuote), ih plain]

theorem betweenQuotes_key (noMark : ∀ c ∈ key, c ≠ mark) (before ds : List Char) :
    betweenQuotes (some (mark, before)) (key ++ mark :: ds) =
      (before.reverse ++ key) :: betweenQuotes none ds := by
  induction key generalizing before with
  | nil => rw [List.nil_append, betweenQuotes, if_pos rfl, List.append_nil]
  | cons c key ih =>
      obtain ⟨differs, noMark⟩ := List.forall_mem_cons.1 noMark
      rw [List.cons_append, betweenQuotes, if_neg differs, ih noMark, List.reverse_cons,
        List.append_assoc, List.singleton_append]

theorem betweenQuotes_accessChars (tight : ∀ a ∈ accesses, Tight a) :
    betweenQuotes none (accessChars accesses) = accesses.filterMap key? := by
  have noQuote {cs : List Char} (plain : ∀ c ∈ cs, isPlain c = true) : ∀ c ∈ cs, c ∉ ['"', '\''] :=
    fun c member => not_mem_of_isPlain (plain c member) (by decide)
  induction accesses with
  | nil => rfl
  | cons a accesses ih =>
      obtain ⟨first, others⟩ := List.forall_mem_cons.1 tight
      rw [accessChars_cons]
      cases a with
      | point name =>
          have plain : ∀ c ∈ '.' :: name, c ∉ ['"', '\''] :=
            List.forall_mem_cons.2 ⟨by decide, noQuote first.2⟩
          exact (betweenQuotes_plain plain _).trans (ih others)
      | bracket text =>
          have plain : ∀ c ∈ '[' :: (text ++ [']']), c ∉ ['"', '\''] := by
            simpa [or_imp, forall_and] using noQuote first
          exact (betweenQuotes_plain plain _).trans (ih others)
      | quoted mark key =>
          have either : mark = '"' ∨ mark = '\'' := by simpa using first.1
          have parts : (Access.quoted mark key).chars ++ accessChars accesses =
              '[' :: mark :: (key ++ mark :: ']' :: accessChars accesses) := by simp [Access.chars]
          rw [parts, betweenQuotes, if_neg (by decide), betweenQuotes, if_pos either,
            betweenQuotes_key first.2, betweenQuotes, if_neg (by decide), ih others]
          rfl

/-- The quoted keys of a path are those of its accesses. -/
theorem Parts.betweenQuotes {head : List Char} (parts : Parts head accesses) :
    betweenQuotes none (head ++ accessChars accesses) = accesses.filterMap key? := by
  rw [betweenQuotes_plain, betweenQuotes_accessChars parts.tight]
  exact fun c member => not_mem_of_isPlain (parts.plain c member) (by decide)

/-! ## The ends of a path -/

theorem not_blank_head_chars (a : Access) : ∀ c ∈ a.chars.head?, Text.isBlank c = false := by
  intro c first
  cases a <;> cases first <;> decide

theorem not_blank_getLast_chars {a : Access} (tight : Tight a) :
    ∀ c ∈ a.chars.getLast?, Text.isBlank c = false := by
  have bracket : Text.isBlank ']' = false := by decide
  intro c last
  cases a with
  | point name =>
      rw [Access.chars, ← List.singleton_append, List.getLast?_append_of_ne_nil _ tight.1] at last
      exact not_blank_of_isPlain (tight.2 c (List.mem_of_getLast? last))
  | bracket text =>
      rw [Access.chars, ← List.cons_append, List.getLast?_concat] at last
      cases last
      exact bracket
  | quoted mark key =>
      have parts : (Access.quoted mark key).chars = ('[' :: mark :: (key ++ [mark])) ++ [']'] := by
        simp [Access.chars]
      rw [parts, List.getLast?_concat] at last
      cases last
      exact bracket

/-- There is no white space at the ends of a path. -/
theorem trim_accessChars {head : List Char} (plain : ∀ c ∈ head, isPlain c = true)
    (tight : ∀ a ∈ accesses, Tight a) :
    Text.trim (head ++ accessChars accesses) = head ++ accessChars accesses := by
  have filled (a : Access) : a.chars ≠ [] := by cases a <;> exact List.cons_ne_nil _ _
  apply Text.trim_of_ends
  · intro c first
    cases head with
    | cons d head =>
        cases first
        exact not_blank_of_isPlain (plain c (List.mem_cons_self ..))
    | nil =>
        cases accesses with
        | nil => cases first
        | cons a accesses =>
            rw [List.nil_append, accessChars_cons,
              List.head?_append_of_ne_nil _ (filled a)] at first
            exact not_blank_head_chars a c first
  · intro c last
    rcases List.eq_nil_or_concat accesses with rfl | ⟨before, a, rfl⟩
    · rw [accessChars_nil, List.append_nil] at last
      exact not_blank_of_isPlain (plain c (List.mem_of_getLast? last))
    · have parts : accessChars (before.concat a) = accessChars before ++ a.chars := by
        simp [accessChars]
      rw [parts, ← List.append_assoc, List.getLast?_append_of_ne_nil _ (filled a)] at last
      exact not_blank_getLast_chars (tight a (by simp)) c last

end UiDoc.Expr
