import UiDoc.Proofs.Expr.PathParts
import UiDoc.Proofs.Expr.Reading
import UiDoc.Proofs.Expr.Regions

/-!
# How expressions end

Paths, numerals and words end outside of quotes, and so does a text unless a backslash stands in
front of its last quote.  What is put together from them ends like its last part, since an operator
is found only where no quote is open.
-/

namespace UiDoc.Expr

open Region (hidesQuote nested)

variable {cs ds body : List Char} {c mark : Char} {e : Expr}

/-! ## Paths -/

namespace PathForm.State

/-- The region in which a part of a path ends. -/
def region : State → Region
  | opened => .bracket
  | quoted mark => .key mark
  | _ => .code

/-- The states outside of brackets and quotes, and behind what stands in brackets. -/
def codeStates : List State :=
  [.name, .digits, .closed, .beforePoint, .point, .afterPoint, .index, .full]

/-- Between regions there is nothing but the bracket of an access. -/
theorem next_border : ∀ c ∈ borders, ∀ state ∈ codeStates,
    state.next c = none ∨ c = '[' ∧ state.next c = some .opened :=
  Text.forall_of_all (by decide)

variable {state next : State}

theorem region_next_of_plain (plain : c ∉ borders) (listed : state ∈ codeStates)
    (reads : state.next c = some next) : next.region = .code := by
  have noBracket : c ≠ '[' := by
    rintro rfl
    exact plain (by decide)
  cases state with
  | opened | quoted => simp [codeStates] at listed
  | name | digits | closed | beforePoint | point | afterPoint | index | full =>
      simp only [State.next, access, if_neg noBracket] at reads
      repeat' split at reads
      all_goals cases reads
      all_goals rfl

theorem region_next_of_code (listed : state ∈ codeStates) (reads : state.next c = some next) :
    Region.next c .code = next.region := by
  by_cases border : c ∈ borders
  · rcases next_border c border state listed with none | ⟨bracket, opens⟩
    · cases none.symm.trans reads
    · cases opens.symm.trans reads
      rw [bracket]
      decide
  · rw [region_next_of_plain border listed reads]
    exact (Region.next_code border).1

theorem region_next_opened (reads : State.next c .opened = some next) :
    Region.next c .bracket = next.region := by
  simp only [State.next] at reads
  rw [Region.next]
  by_cases quote : c = '"' ∨ c = '\''
  · have apart : ∀ c ∈ ['"', '\''], Text.isBlank c = false ∧ Text.isDigit c = false :=
      Text.forall_of_all (by decide)
    obtain ⟨noBlank, noDigit⟩ := apart c (by simpa using quote)
    rw [if_neg (by simp [noBlank]), if_neg (by simp [noDigit]), if_pos quote] at reads
    cases reads
    rw [if_pos quote]
    rfl
  · rw [if_neg quote]
    split at reads
    next blank =>
      cases reads
      rw [if_pos blank]
      rfl
    next noBlank =>
      split at reads
      next =>
        cases reads
        rw [if_neg noBlank]
        rfl
      next => cases reads

theorem region_next_quoted (reads : State.next c (.quoted mark) = some next) :
    Region.next c (.key mark) = next.region := by
  simp only [State.next] at reads
  rw [Region.next]
  split at reads
  next closes =>
    cases reads
    rw [if_pos closes]
    rfl
  next other =>
    cases reads
    rw [if_neg other]
    rfl

/-- One more character of a path leads from region to region. -/
theorem region_next (reads : state.next c = some next) : state.region.next c = next.region := by
  cases state with
  | opened => exact region_next_opened reads
  | quoted mark => exact region_next_quoted reads
  | name | digits | closed | beforePoint | point | afterPoint | index | full =>
      exact region_next_of_code (by decide) reads

/-- A path has parentheses only between quotes. -/
theorem noParen_of_next (reads : state.next c = some next) (outside : state.region.quote? = none) :
    c ≠ '(' ∧ c ≠ ')' := by
  have none : ∀ c ∈ ['(', ')'], ∀ state ∈ State.opened :: codeStates, state.next c = none :=
    Text.forall_of_all (by decide)
  have listed : state ∈ State.opened :: codeStates := by
    cases state with
    | quoted => cases outside
    | name | digits | closed | beforePoint | point | afterPoint | opened | index | full => decide
  have other : c ∉ ['(', ')'] := fun paren => by cases (none c paren state listed).symm.trans reads
  simpa using other

end PathForm.State

/-- A path ends outside of quotes, and it has parentheses only between them. -/
theorem region_of_completes {state : PathForm.State} (path : PathForm.completes state cs = true) :
    state.region.after cs = .code ∧ ∀ depth, nested state.region depth cs = some depth := by
  induction cs generalizing state with
  | nil =>
      refine ⟨?_, fun _ => rfl⟩
      cases state with
      | name | digits | closed => rfl
      | beforePoint | point | afterPoint | opened | index | quoted | full => cases path
  | cons c cs ih =>
      rw [PathForm.completes] at path
      split at path
      case h_2 => cases path
      case h_1 next reads =>
        rw [Region.after_cons, PathForm.State.region_next reads]
        refine ⟨(ih path).1, fun depth => ?_⟩
        rw [Region.nested_of_ne (PathForm.State.noParen_of_next reads),
          PathForm.State.region_next reads, (ih path).2]

theorem sealed_of_isPath (path : PathForm.isPath cs = true) : Sealed cs := by
  cases cs with
  | nil => cases path
  | cons c cs =>
      rw [PathForm.isPath, Bool.and_eq_true] at path
      have plain : c ∉ borders := Text.not_mem_of_all path.1 (by decide)
      obtain ⟨after, nested⟩ := region_of_completes path.2
      have first : Sealed [c] := sealed_of_plain (by simpa using plain)
      exact first.append ⟨after, nested⟩

/-! ## Literals -/

/-- The characters of numerals. -/
def numeralChars : List Char :=
  ['.', 'e', 'E', '+', '-'] ++ Text.digits

theorem mem_of_exponentText {exponent short : List Char}
    (text : Decimal.ExponentText exponent short) : ∀ c ∈ exponent, c ∈ numeralChars := by
  cases text with
  | absent => exact nofun
  | @written letter sign ds letters signs _ digits =>
      have first : ∀ letter ∈ ['e', 'E'], letter ∈ numeralChars := Text.forall_of_all (by decide)
      have second : ∀ sign ∈ [[], ['+'], ['-']],
          (sign.all fun c => decide (c ∈ numeralChars)) = true := by decide
      refine List.forall_mem_cons.2 ⟨first letter letters, fun c member => ?_⟩
      rcases List.mem_append.1 member with inSign | inDigits
      · exact Text.forall_of_all (second sign signs) c inSign
      · exact List.mem_append_right _ (digits c inDigits)

theorem mem_of_readUnsigned {d : Decimal} (read : Decimal.readUnsigned cs = some d) :
    ∀ c ∈ cs, c ∈ numeralChars := by
  obtain ⟨whole, point, exponent, short, rfl, digits, text, fraction, -⟩ :=
    Decimal.exists_of_readUnsigned read
  intro c member
  simp only [List.mem_append] at member
  rcases member with inWhole | inPoint | inExponent
  · exact List.mem_append_right _ (digits c inWhole)
  · rcases fraction with ⟨rfl, -⟩ | ⟨fraction, rfl, all, -⟩
    · cases inPoint
    · rcases List.mem_cons.1 inPoint with rfl | inFraction
      · decide
      · exact List.mem_append_right _ (all c inFraction)
  · exact mem_of_exponentText text c inExponent

theorem sealed_of_readNumber {v : Json} (read : readNumber cs = some v) : Sealed cs := by
  have plain : ∀ c ∈ numeralChars, c ∉ borders := Text.forall_of_all (by decide)
  have unsigned {cs : List Char} {d : Decimal} (read : Decimal.readUnsigned cs = some d) :
      Sealed cs :=
    sealed_of_plain fun c member => plain c (mem_of_readUnsigned read c member)
  unfold readNumber at read
  split at read
  · obtain ⟨d, found, -⟩ := Option.map_eq_some_iff.1 read
    have sign : Sealed ['-'] := sealed_of_plain (Text.forall_of_all (by decide))
    exact sign.append (unsigned found)
  · obtain ⟨d, found, -⟩ := Option.map_eq_some_iff.1 read
    exact unsigned found

theorem exists_of_readQuoted {s : String} (read : readQuoted cs = some s) :
    ∃ mark body, cs = mark :: (body ++ [mark]) ∧ mark ∈ ['"', '\''] ∧
      hasBareQuote mark body = false := by
  unfold readQuoted at read
  split at read
  case h_1 => cases read
  case h_2 mark cs =>
    split at read
    case h_2 => cases read
    case h_1 last found =>
      split at read
      case isFalse => cases read
      case isTrue parts =>
        obtain ⟨quote, same, bare⟩ := parts
        obtain ⟨body, rfl⟩ := List.getLast?_eq_some_iff.1 found
        rw [List.dropLast_concat] at bare
        exact ⟨mark, body, by rw [same], by simpa using quote, by simpa using bare⟩

/-- Behind the body of a text its quote is open, and a backslash may hide what follows. -/
structure Behind (mark : Char) (body : List Char) : Prop where
  region : (Region.text mark).after body = if endsInEscape body then .escape mark else .text mark
  nested (depth : Nat) : nested (.text mark) depth body = some depth
  nesting (depth : Int) : Nesting.after { depth, quote := some mark } body =
    { depth, quote := some mark, escaped := endsInEscape body }

/-- A character that is neither a backslash nor the quote stays in the text. -/
theorem Behind.of_other (plain : c ≠ '\\') (differs : c ≠ mark) (behind : Behind mark body) :
    Behind mark (c :: body) := by
  have stays : (Region.text mark).next c = .text mark := by
    rw [Region.next, if_neg differs, if_neg plain]
  have same : endsInEscape (c :: body) = endsInEscape body := by
    rw [endsInEscape]
    · exact fun same => absurd same plain
    · exact fun _ _ same => absurd same plain
  refine ⟨?_, fun depth => ?_, fun depth => ?_⟩
  · rw [Region.after_cons, stays, same, behind.region]
  · rw [Region.nested_of_ne fun outside => by cases outside]
    rw [stays, behind.nested]
  · have inside : Nesting.next { depth, quote := some mark } c = { depth, quote := some mark } := by
      simp [Nesting.next, plain, differs]
    rw [Nesting.after_cons, inside, same, behind.nesting]

theorem escapes_text (other : '\\' ≠ mark) : (Region.text mark).next '\\' = .escape mark := by
  rw [Region.next, if_neg other, if_pos rfl]

theorem escapes_quoted (mark : Char) (depth : Int) :
    Nesting.next { depth, quote := some mark } '\\' =
      { depth, quote := some mark, escaped := true } := by
  simp [Nesting.next]

/-- A backslash hides what follows. -/
theorem Behind.of_escape (other : '\\' ≠ mark) (hidden : Char) (behind : Behind mark body) :
    Behind mark ('\\' :: hidden :: body) := by
  refine ⟨?_, fun depth => ?_, fun depth => ?_⟩
  · rw [Region.after_cons, escapes_text other]
    exact behind.region
  · rw [Region.nested_of_ne fun outside => by cases outside]
    rw [escapes_text other, Region.nested_of_ne fun outside => by cases outside]
    exact behind.nested depth
  · rw [Nesting.after_cons, escapes_quoted]
    exact behind.nesting depth

/-- A backslash with nothing behind it would hide the quote. -/
theorem behind_escape (other : '\\' ≠ mark) : Behind mark ['\\'] := by
  refine ⟨escapes_text other, fun depth => ?_, escapes_quoted mark⟩
  rw [Region.nested_of_ne fun outside => by cases outside]
  rfl

theorem behind_body (quote : mark ∈ ['"', '\'']) (noQuote : hasBareQuote mark body = false) :
    Behind mark body := by
  have other : ∀ mark ∈ ['"', '\''], '\\' ≠ mark := Text.forall_of_all (by decide)
  induction body using hasBareQuote.induct with
  | case1 => exact ⟨rfl, fun _ => rfl, fun _ => rfl⟩
  | case2 hidden cs ih => exact .of_escape (other mark quote) hidden (ih noQuote)
  | case3 c cs single ih =>
      have parts : (c == mark) = false ∧ hasBareQuote mark cs = false := by
        rw [hasBareQuote] at noQuote
        · exact Bool.or_eq_false_iff.1 noQuote
        · exact single
      by_cases escape : c = '\\'
      · subst escape
        cases cs with
        | cons d cs => exact absurd rfl (single d cs rfl)
        | nil => exact behind_escape (other mark quote)
      · exact .of_other escape (by simpa using parts.1) (ih parts.2)

theorem settled_quoted (quote : mark ∈ ['"', '\'']) (noQuote : hasBareQuote mark body = false) :
    Settled (mark :: (body ++ [mark])) := by
  obtain ⟨region, count, nesting⟩ := behind_body quote noQuote
  have either : mark = '"' ∨ mark = '\'' := by simpa using quote
  have other : mark ≠ '(' ∧ mark ≠ ')' := by rcases either with rfl | rfl <;> decide
  have opens : Region.next mark .code = .text mark := by rw [Region.next, if_pos either]
  have counts (depth : Nat) :
      Region.nested .code depth (mark :: (body ++ [mark])) = some depth := by
    rw [Region.nested_of_ne fun _ => other, opens, Region.nested_append, count]
    exact Region.nested_of_ne (fun _ => other) depth []
  cases ends : endsInEscape body with
  | false =>
      rw [ends] at region
      refine .inl ⟨?_, counts⟩
      rw [Region.after_cons, opens, Region.after_append, region]
      exact if_pos rfl
  | true =>
      rw [ends] at region
      refine .inr ⟨mark, quote, ?_, fun depth => ⟨depth, counts depth⟩, ?_, fun depth => ?_⟩
      · rw [Region.after_cons, opens, Region.after_append, region]
        rfl
      · rw [hidesQuote, opens, Region.hidesQuote_append, region]
        simp [hidesQuote]
      · have starts : Nesting.next { depth } mark = { depth, quote := some mark } := by
          rcases either with rfl | rfl <;> rfl
        rw [Nesting.after_cons, starts, Nesting.after_append, nesting, ends]
        rfl

theorem settled_of_leaf? (read : leaf? cs = some e) : Settled cs := by
  by_cases known : ∃ word ∈ Script.literalWords, cs = word.toList
  · obtain ⟨word, listed, rfl⟩ := known
    have plain : ∀ word ∈ Script.literalWords,
        (word.toList.all fun c => decide (c ∉ borders)) = true := by decide
    exact .inl (sealed_of_plain (Text.forall_of_all (plain word listed)))
  · have noWord : ∀ word ∈ Script.literalWords, cs ≠ word.toList :=
      fun word listed same => known ⟨word, listed, same⟩
    rw [leaf?, Script.readLiteral_of_no_word noWord] at read
    cases quoted : readQuoted cs with
    | some s =>
        obtain ⟨mark, body, rfl, listed, bare⟩ := exists_of_readQuoted quoted
        exact settled_quoted listed bare
    | none =>
        cases number : readNumber cs with
        | some v => exact .inl (sealed_of_readNumber number)
        | none =>
            rw [quoted, number] at read
            by_contra unsettled
            rw [Option.map_none, Option.or_none, Option.map_none] at read
            simp only at read
            split at read
            next path => exact unsettled (.inl (sealed_of_isPath path))
            next => cases read

/-! ## What is read -/

theorem Settled.padded {lead trail : List Char} (settled : Settled cs)
    (blankLead : ∀ c ∈ lead, Text.isBlank c) (blankTrail : ∀ c ∈ trail, Text.isBlank c) :
    Settled (lead ++ (cs ++ trail)) := by
  have plain {c : Char} (blank : Text.isBlank c = true) {listed : List Char}
      (foreign : listed.all (!Text.isBlank ·) = true) : c ∉ listed :=
    Text.not_mem_of_all blank foreign
  have sealedLead : Sealed lead :=
    sealed_of_plain fun c member => plain (blankLead c member) (by decide)
  have unquoted : Unquoted lead :=
    unquoted_of_plain fun c member => plain (blankLead c member) (by decide)
  exact sealedLead.append_settled unquoted
    (settled.append fun c member => plain (blankTrail c member) (by decide))

theorem settled_of_trim (settled : Settled (Text.trim cs)) : Settled cs := by
  obtain ⟨lead, trail, parts, blankLead, blankTrail⟩ := Text.exists_trim cs
  rw [parts]
  exact settled.padded blankLead blankTrail

theorem settled_of_bare (settled : Settled (bare cs)) : Settled cs := by
  fun_induction bare cs with
  | case1 cs inner enclosed ih =>
      apply settled_of_trim
      rw [enclosed?_eq enclosed]
      exact (ih settled).paren
  | case2 cs plain => exact settled_of_trim settled

theorem Settled.not (settled : Settled cs) : Settled ('!' :: cs) := by
  have sign : Sealed ['!'] := sealed_of_plain (Text.forall_of_all (by decide))
  have unquoted : Unquoted ['!'] := unquoted_of_plain (Text.forall_of_all (by decide))
  exact sign.append_settled unquoted settled

/-- Behind an operator a text ends like its right side. -/
theorem Settled.split {sign left right : List Char} (first : Settled left)
    (outside : (Nesting.after {} left).outside = true)
    (plain : ∀ c ∈ sign, c ∉ borders ∧ c ∉ ['"', '\'', '`']) (second : Settled right) :
    Settled (left ++ (sign ++ right)) := by
  have sealedSign : Sealed sign := sealed_of_plain fun c member => (plain c member).1
  have unquoted : Unquoted sign := unquoted_of_plain fun c member => (plain c member).2
  exact (first.sealed_of_outside outside).append_settled (unquoted_of_outside outside)
    (sealedSign.append_settled unquoted second)

theorem Settled.fallback {left right : List Char}
    (found : splitOperator fallback? {} cs = some (left, (), right)) (first : Settled left)
    (second : Settled right) : Settled cs := by
  obtain ⟨tail, parts, sign⟩ := splitOperator_eq found
  have plain : ∀ c ∈ ['|', '|'], c ∉ borders ∧ c ∉ ['"', '\'', '`'] :=
    Text.forall_of_all (by decide)
  rw [parts, fallback?_eq sign]
  exact first.split (outside_of_splitOperator found) plain second

theorem Settled.compare {left right : List Char} {comparison : Comparison}
    (found : splitOperator comparison? {} cs = some (left, comparison, right))
    (first : Settled left) (second : Settled right) : Settled cs := by
  obtain ⟨tail, parts, sign⟩ := splitOperator_eq found
  have plain : ∀ c ∈ comparison.sign.toList, c ∉ borders ∧ c ∉ ['"', '\'', '`'] := by
    cases comparison <;> exact Text.forall_of_all (by decide)
  rw [parts, comparison?_eq sign]
  exact first.split (outside_of_splitOperator found) plain second

/-- Whatever is read ends outside of quotes, or else with a quote that is hidden. -/
theorem inherited_settled :
    Inherited (fun cs _ => Settled cs) (fun cs _ => Settled cs) fun cs _ => Settled cs where
  fallback found left right := settled_of_bare (.fallback found left right)
  compare found left right := settled_of_bare (.compare found left right)
  operand settled := settled_of_bare settled
  chainFallback found left right := settled_of_trim (.fallback found left right)
  chainLast settled _ := settled
  notParen trimmed enclosed inside := by
    apply settled_of_trim
    rw [trimmed]
    apply Settled.not
    apply settled_of_trim
    rw [enclosed?_eq enclosed]
    exact inside.paren
  not trimmed settled := by
    apply settled_of_trim
    rw [trimmed]
    exact settled.not
  paren trimmed enclosed inside := by
    apply settled_of_trim
    rw [trimmed, enclosed?_eq enclosed]
    exact inside.paren
  leaf trimmed read := by
    apply settled_of_trim
    rw [trimmed]
    exact settled_of_leaf? read

theorem settled_of_parseChars (read : parseChars cs = some e) : Settled cs :=
  inherited_settled.of_read.1 cs e read

end UiDoc.Expr
