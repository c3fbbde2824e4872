import UiDoc.Proofs.Text.Classes
import UiDoc.Expr.Literal
import UiDoc.Script.Lexer

/-!
# The tokens of simple texts

A cursor in front of a text shows the first token of the text, whatever white space stands in front
of it.  Signs and names are read as far as they go, and no further.
-/

namespace UiDoc.Script

variable {c : Char} {cs rest lead : List Char} {token : Token} {cursor : Cursor}

/-! ## White space -/

/-- Whether a line has ended before makes no difference to what is left. -/
theorem skipGap_snd (newline other : Bool) (gap : Gap) (cs : List Char) :
    (skipGap newline gap cs).map Prod.snd = (skipGap other gap cs).map Prod.snd := by
  fun_induction skipGap newline gap cs generalizing other with
  | case1 | case7 | case10 => simp only [skipGap, Option.map_some]
  | case2 _ _ ih | case3 _ _ ih | case11 _ _ ih => simp only [skipGap, ih other]
  | case4 _ _ _ _ _ ends _ => simp only [skipGap, if_pos ends]
  | case5 _ _ _ _ _ stays space ih => simp only [skipGap, if_neg stays, if_pos space, ih other]
  | case6 _ _ _ _ _ stays solid =>
      simp only [skipGap, if_neg stays, if_neg solid, Option.map_some]
  | case8 _ _ _ ends _ => simp only [skipGap, if_pos ends]
  | case9 _ _ _ stays ih => simp only [skipGap, if_neg stays, ih other]
  | case12 _ c _ _ ih => simp only [skipGap, ih (other || isLineEnd c)]

theorem skipGap_blanks (blank : ∀ c ∈ lead, Text.isBlank c) (newline : Bool) :
    (skipGap newline .blank (lead ++ cs)).map Prod.snd =
      (skipGap false .blank cs).map Prod.snd := by
  induction lead generalizing newline with
  | nil => exact skipGap_snd newline false .blank cs
  | cons c lead ih =>
      obtain ⟨first, others⟩ := List.forall_mem_cons.1 blank
      have gaps : ∀ c ∈ Text.blanks, c ≠ '/' ∧ (isLineEnd c || isSpace c) = true :=
        Text.forall_of_all (by decide)
      obtain ⟨slash, gap⟩ := gaps c (Text.mem_blanks first)
      rw [List.cons_append, skipGap]
      · by_cases ends : isLineEnd c = true
        · rw [if_pos ends, ih others]
        · rw [if_neg ends, if_pos (by simpa [ends] using gap), ih others]
      · exact fun _ same => absurd same slash
      · exact fun _ same => absurd same slash

/-! ## Cursors in front of texts -/

namespace Cursor

/-- The cursor stands in front of a text; whether a line ends there is left open. -/
def At (cursor : Cursor) (cs : List Char) : Prop :=
  ∃ newline, first? cs = some { cursor with newline }

theorem At.of_first? (found : first? cs = some cursor) : cursor.At cs :=
  ⟨cursor.newline, found⟩

theorem At.next {next : Cursor} (found : cursor.next? = some next) : next.At cursor.rest :=
  .of_first? found

/-- What a cursor shows is the token behind white space and comments. -/
theorem at_iff :
    cursor.At cs ↔
      match (skipGap false .blank cs).map Prod.snd with
      | none => cursor.token = .unreadable ∧ cursor.rest = []
      | some rest => readToken rest = some (cursor.token, cursor.rest) := by
  obtain ⟨token, newline, rest⟩ := cursor
  unfold At first?
  cases skipGap false .blank cs with
  | none => simp [eq_comm]
  | some gap =>
      obtain ⟨ended, behind⟩ := gap
      change (∃ other, (readToken behind).map _ = some (Cursor.mk token other rest)) ↔
        readToken behind = some (token, rest)
      constructor
      · rintro ⟨other, found⟩
        obtain ⟨read, reads, same⟩ := Option.map_eq_some_iff.1 found
        cases same
        exact reads
      · intro read
        exact ⟨ended, by rw [read, Option.map_some]⟩

/-- White space in front of a text changes nothing. -/
theorem at_blanks (blank : ∀ c ∈ lead, Text.isBlank c) :
    cursor.At (lead ++ cs) ↔ cursor.At cs := by
  rw [at_iff, at_iff, skipGap_blanks blank]

end Cursor

/-- The first token of a text, and the text behind it. -/
def Starts (cs : List Char) (token : Token) (rest : List Char) : Prop :=
  ∀ cursor : Cursor, cursor.At cs → cursor.token = token ∧ cursor.rest = rest

theorem starts_blanks (blank : ∀ c ∈ lead, Text.isBlank c) (starts : Starts cs token rest) :
    Starts (lead ++ cs) token rest :=
  fun cursor stands => starts cursor ((Cursor.at_blanks blank).1 stands)

/-- Neither white space nor a comment starts with the character. -/
def isSolid (c : Char) : Bool :=
  !isLineEnd c && !isSpace c && c != '/'

theorem starts_of_readToken (solid : isSolid c = true)
    (read : readToken (c :: cs) = some (token, rest)) : Starts (c :: cs) token rest := by
  simp only [isSolid, Bool.and_eq_true, Bool.not_eq_true', bne_iff_ne] at solid
  obtain ⟨⟨stays, space⟩, slash⟩ := solid
  have here : skipGap false .blank (c :: cs) = some (false, c :: cs) := by
    rw [skipGap]
    · rw [if_neg (by simp [stays]), if_neg (by simp [space])]
    · exact fun _ same => absurd same slash
    · exact fun _ same => absurd same slash
  intro cursor stands
  rw [Cursor.at_iff, here] at stands
  obtain ⟨token, rest⟩ := Prod.mk.inj (Option.some.inj (read.symm.trans stands))
  exact ⟨token.symm, rest.symm⟩

theorem starts_nil : Starts [] .finish [] := by
  intro cursor stands
  obtain ⟨token, rest⟩ := Prod.mk.inj (Option.some.inj (Cursor.at_iff.1 stands))
  exact ⟨token.symm, rest.symm⟩

/-- The characters that may stand behind an operand. -/
def stops : List Char :=
  Text.blanks ++ [')', ']', '|', '=', '!', '<', '>']

/-- What may stand behind an operand belongs to no name. -/
theorem isIdentifierPart_of_stops (stop : c ∈ stops) : Text.isIdentifierPart c = false := by
  have signs : ∀ c ∈ [')', ']', '|', '=', '!', '<', '>'], Text.isIdentifierPart c = false :=
    Text.forall_of_all (by decide)
  exact (List.mem_append.1 stop).elim Text.isIdentifierPart_of_mem_blanks (signs c)

/-! ## Signs -/

/-- Whether a character starts neither a text, a number nor a name. -/
def startsSign (c : Char) : Bool :=
  isSolid c && !(c == '"' || c == '\'' || c == '`' || isDigitIn 10 c || c == '.' || c == '#' ||
    c == '\\' || Text.isIdentifierStart c)

theorem starts_of_readSign (sign : cs.head?.any startsSign = true)
    (read : readSign cs = some (token, rest)) : Starts cs token rest := by
  cases cs with
  | nil => cases sign
  | cons c cs =>
      simp only [List.head?_cons, Option.any_some, startsSign, Bool.and_eq_true,
        Bool.not_eq_true', Bool.or_eq_false_iff, beq_eq_false_iff_ne] at sign
      obtain ⟨solid, ⟨⟨⟨⟨⟨⟨double, single⟩, back⟩, digit⟩, point⟩, hash⟩, slash⟩, name⟩ := sign
      apply starts_of_readToken solid
      simp [readToken, double, single, back, digit, point, hash, slash, name, read]

/-- The operators that may stand between two operands of either language. -/
def infixes : List String :=
  ["||", "===", "!==", "==", "!=", ">", ">=", "<", "<="]

/-- The operator reaches as far as it can, unless a sign behind it makes another one of it. -/
theorem starts_operator {s : String} (operator : s ∈ "!" :: infixes)
    (apart : ∀ c ∈ cs.head?, c ∉ ['=', '<', '>']) : Starts (s.toList ++ cs) (.sign s) cs := by
  have first : ∀ s ∈ "!" :: infixes, s.toList.head?.any startsSign = true := by decide
  have sign : (s.toList ++ cs).head?.any startsSign = true := by
    have first := first s operator
    cases parts : s.toList with
    | nil => simp [parts] at first
    | cons c rest => simpa [parts] using first
  apply starts_of_readSign sign
  simp only [infixes, List.mem_cons, List.not_mem_nil, or_false] at operator
  rcases operator with rfl | rfl | rfl | rfl | rfl | rfl | rfl | rfl | rfl | rfl
  all_goals
    cases cs with
    | nil => simp [readSign, readSignOf, signs, Text.dropLeading?]
    | cons c cs =>
        have apart := apart c rfl
        simp only [List.mem_cons, List.not_mem_nil, or_false, not_or] at apart
        obtain ⟨equals, less, greater⟩ := apart
        simp [readSign, readSignOf, signs, Text.dropLeading?, Ne.symm equals, Ne.symm less,
          Ne.symm greater]

theorem starts_bracket (bracket : Char) (listed : bracket ∈ ['(', ')', '[', ']']) :
    Starts (bracket :: cs) (.sign (String.singleton bracket)) cs := by
  have all : ∀ c ∈ ['(', ')', '[', ']'], startsSign c = true := Text.forall_of_all (by decide)
  have sign : (bracket :: cs).head?.any startsSign = true := all bracket listed
  apply starts_of_readSign sign
  simp only [List.mem_cons, List.not_mem_nil, or_false] at listed
  rcases listed with rfl | rfl | rfl | rfl
  all_goals simp [readSign, readSignOf, signs, Text.dropLeading?]

theorem starts_minus (apart : ∀ c ∈ cs.head?, c ∉ ['-', '=']) :
    Starts ('-' :: cs) (.sign "-") cs := by
  have minus : startsSign '-' = true := by decide
  have sign : ('-' :: cs).head?.any startsSign = true := minus
  apply starts_of_readSign sign
  cases cs with
  | nil => simp [readSign, readSignOf, signs, Text.dropLeading?]
  | cons c cs =>
      have apart := apart c rfl
      simp only [List.mem_cons, List.not_mem_nil, or_false, not_or] at apart
      simp [readSign, readSignOf, signs, Text.dropLeading?, Ne.symm apart.1, Ne.symm apart.2]

/-- A point belongs to no number and to no longer sign if neither a digit nor a point follows. -/
theorem starts_point (apart : ∀ c ∈ cs.head?, c ≠ '.' ∧ isDigitIn 10 c = false) :
    Starts ('.' :: cs) (.sign ".") cs := by
  apply starts_of_readToken (by decide)
  have noNumeral : cs.head?.any (isDigitIn 10) = false := by
    cases cs with
    | nil => rfl
    | cons c cs => exact (apart c rfl).2
  have point : isDigitIn 10 '.' = false := by decide
  have start : Text.isIdentifierStart '.' = false := by decide
  have sign : readSign ('.' :: cs) = some (.sign ".", cs) := by
    cases cs with
    | nil => simp [readSign, readSignOf, signs, Text.dropLeading?]
    | cons c cs =>
        simp [readSign, readSignOf, signs, Text.dropLeading?, Ne.symm (apart c rfl).1]
  simp [readToken, noNumeral, point, start, sign]

/-! ## Names -/

/-- No character of a name, and no escape of one, stands at the start of the text. -/
def endsName (rest : List Char) : Bool :=
  !rest.head?.any fun c => c == '\\' || Text.isIdentifierPart c

/-- A name whose first character is plain. -/
def isName : List Char → Bool
  | [] => false
  | c :: cs => Text.isPlainStart c && cs.all Text.isIdentifierPart

theorem readNameChar?_of_ne {wanted : Char → Bool} (slash : c ≠ '\\') :
    readNameChar? wanted (c :: cs) = if wanted c then some (c, false, cs) else none := by
  rw [readNameChar?]
  exact fun _ same => absurd same slash

theorem ne_backslash_of_isIdentifierPart (part : Text.isIdentifierPart c = true) : c ≠ '\\' := by
  rintro rfl
  revert part
  decide

theorem readNameRest_eq_nil (ends : endsName rest = true) (fuel : Nat) :
    readNameRest fuel rest = some ([], false, rest) := by
  cases fuel with
  | zero => rfl
  | succ fuel =>
      cases rest with
      | nil => rfl
      | cons c cs =>
          simp only [endsName, List.head?_cons, Option.any_some, Bool.not_eq_true',
            Bool.or_eq_false_iff, beq_eq_false_iff_ne] at ends
          obtain ⟨slash, other⟩ := ends
          rw [readNameRest, readNameChar?_of_ne slash, if_neg (by simp [other])]
          intro _ same
          exact slash (List.cons.inj same).1

theorem readNameRest_append {name : List Char} {fuel : Nat} (enough : name.length ≤ fuel)
    (parts : name.all Text.isIdentifierPart = true) (ends : endsName rest = true) :
    readNameRest fuel (name ++ rest) = some (name, false, rest) := by
  induction name generalizing fuel with
  | nil => exact readNameRest_eq_nil ends fuel
  | cons c name ih =>
      rw [List.all_cons, Bool.and_eq_true] at parts
      cases fuel with
      | zero => cases enough
      | succ fuel =>
          have slash := ne_backslash_of_isIdentifierPart parts.1
          rw [List.cons_append, readNameRest, readNameChar?_of_ne slash, if_pos parts.1]
          · simp only
            rw [ih (Nat.le_of_succ_le_succ enough) parts.2]
            rfl
          · exact fun _ same => slash (List.cons.inj same).1

/-- What starts a name starts neither white space, a number, a text nor a sign. -/
theorem apart_of_isPlainStart (start : Text.isPlainStart c = true) :
    isSolid c = true ∧ isDigitIn 10 c = false ∧ c ∉ Text.digits ∧
      c ∉ ['"', '\'', '`', '.', '#', '\\', '-', '=', '<', '>'] := by
  have all : ∀ c ∈ Text.ascii, Text.isPlainStart c = true →
      isSolid c = true ∧ isDigitIn 10 c = false ∧ c ∉ Text.digits ∧
        c ∉ ['"', '\'', '`', '.', '#', '\\', '-', '=', '<', '>'] := Text.forall_of_all rfl
  exact all c (Text.mem_ascii_of_isPlainStart start) start

/-- A name reaches as far as it can. -/
theorem starts_name {name : List Char} (is : isName name = true) (ends : endsName rest = true) :
    Starts (name ++ rest) (.name (String.ofList name) false) rest := by
  cases name with
  | nil => cases is
  | cons c name =>
      rw [isName, Bool.and_eq_true] at is
      obtain ⟨solid, digit, -, signs⟩ := apart_of_isPlainStart is.1
      have start := Text.isIdentifierStart_of_isPlainStart is.1
      simp only [List.mem_cons, List.not_mem_nil, or_false, not_or] at signs
      obtain ⟨double, single, back, point, hash, slash, -⟩ := signs
      apply starts_of_readToken solid
      have reads : readName (c :: (name ++ rest)) = some (c :: name, false, rest) := by
        have enough : name.length ≤ (name ++ rest).length := by simp
        have more := readNameRest_append enough is.2 ends
        rw [readName, readNameChar?_of_ne slash, if_pos start]
        simp only [Option.bind_eq_bind, Option.bind_some, more]
        rfl
      simp [readToken, double, single, back, digit, point, hash, start, reads]

/-! ## Texts -/

/-- Whether a character behind a backslash stands for the same in both languages. -/
def sharesEscape (c : Char) : Bool :=
  !isLineEnd c && c ∉ "bfvxu01234567".toList

/-- Whether all that stands between quotes means the same in both languages. -/
def sharesText (mark : Char) : List Char → Bool
  | [] => true
  | '\\' :: c :: cs => sharesEscape c && sharesText mark cs
  | c :: cs => c != mark && c != '\\' && sharesText mark cs

theorem letterEscape?_of_not_mem (other : c ∉ ['b', 'f', 'v']) :
    letterEscape? c = some (Expr.unescapeChar c) ∨
      letterEscape? c = none ∧ Expr.unescapeChar c = c := by
  simp only [List.mem_cons, List.not_mem_nil, or_false, not_or] at other
  obtain ⟨back, form, vertical⟩ := other
  unfold letterEscape? Expr.unescapeChar
  rw [if_neg back, if_neg form, if_neg vertical]
  by_cases line : c = 'n'
  · simp [line]
  · by_cases return_ : c = 'r'
    · simp [return_]
    · by_cases tab : c = 't'
      · simp [tab]
      · simp [line, return_, tab]

theorem escape?_of_sharesEscape (shares : sharesEscape c = true) (cs : List Char) :
    ∃ unit, escape? false (c :: cs) = some ([unit], cs) ∧
      (unit = .char (Expr.unescapeChar c) ∨ unit = .escaped (Expr.unescapeChar c)) := by
  rw [sharesEscape, Bool.and_eq_true, Bool.not_eq_true', decide_eq_true_eq] at shares
  obtain ⟨stays, other⟩ := shares
  have apart : ∀ d ∈ "bfvxu01234567".toList, c ≠ d := fun d listed same => other (same ▸ listed)
  have notX : c ≠ 'x' := apart 'x' (by decide)
  have notU : c ≠ 'u' := apart 'u' (by decide)
  have noLetter : c ∉ ['b', 'f', 'v'] := by
    have all : ∀ c ∈ ['b', 'f', 'v'], c ∈ "bfvxu01234567".toList := Text.forall_of_all (by decide)
    exact fun letter => other (all c letter)
  rw [escape?]
  · rcases letterEscape?_of_not_mem noLetter with letter | ⟨noLetter, same⟩
    · rw [letter]
      exact ⟨_, rfl, .inl rfl⟩
    · rw [noLetter, same]
      simp only
      rw [if_neg (by simp [stays])]
      split
      case isTrue digit =>
        have all : ∀ c ∈ Text.ascii, '0' ≤ c ∧ c ≤ '9' → c ∉ "bfvxu01234567".toList →
            c ≠ '0' ∧ '8' ≤ c := Text.forall_of_all rfl
        have low : c.toNat < 128 := Nat.lt_of_le_of_lt digit.2 (by decide)
        obtain ⟨notZero, high⟩ := all c (Text.mem_ascii low) digit other
        rw [if_neg (by simp [notZero]), if_neg (by simp), if_pos high]
        exact ⟨_, rfl, .inl rfl⟩
      case isFalse => exact ⟨_, rfl, .inr rfl⟩
  · rintro _ rfl
    cases stays
  · exact notU
  · exact fun _ _ _ same => absurd same notX
  · exact fun same => absurd same notX
  · exact fun _ same => absurd same notX

/-- A quoted text has been read up to its end, and stands for the characters, or else a line ends in
it. -/
def Quoted (quote : Option Quote) (chars rest : List Char) : Prop :=
  quote = none ∨ ∃ units, quote = some ⟨units, true, true, rest⟩ ∧
    hasHalf units = false ∧ unitChars false units = chars

theorem Quoted.behind {quote : Option Quote} {chars : List Char} {unit : Unit16}
    (quoted : Quoted quote chars rest) (means : unit = .char c ∨ unit = .escaped c) :
    Quoted (quote.map (Quote.behind [unit])) (c :: chars) rest := by
  rcases quoted with rfl | ⟨units, rfl, whole, rfl⟩
  · exact .inl rfl
  · refine .inr ⟨unit :: units, rfl, ?_⟩
    rcases means with rfl | rfl
    · exact ⟨whole, by simp [unitChars]⟩
    · exact ⟨whole, by simp [unitChars, whole]⟩

/-- What stands between quotes is read as it is read between the quotes of an expression. -/
theorem quoted_readText {mark : Char} (quote : mark ∈ ['"', '\'']) {body : List Char}
    (shares : sharesText mark body = true) {fuel : Nat} (enough : body.length < fuel) :
    Quoted (readText mark fuel (body ++ mark :: rest)) (Expr.unescape body) rest := by
  have apart : '\\' ≠ mark := by
    rintro rfl
    revert quote
    decide
  obtain ⟨fuel, rfl⟩ : ∃ less, fuel = less + 1 := ⟨fuel - 1, by omega⟩
  fun_induction sharesText mark body generalizing fuel with
  | case1 => exact .inr ⟨[], by rw [List.nil_append, readText, if_pos rfl], rfl, rfl⟩
  | case2 c cs ih =>
      rw [Bool.and_eq_true] at shares
      simp only [List.length_cons] at enough
      obtain ⟨less, rfl⟩ : ∃ less, fuel = less + 1 := ⟨fuel - 1, by omega⟩
      obtain ⟨unit, escapes, means⟩ := escape?_of_sharesEscape shares.1 (cs ++ mark :: rest)
      rw [List.cons_append, List.cons_append, readText, if_neg apart, if_pos rfl, escapes]
      exact (ih shares.2 less (by omega)).behind means
  | case3 c cs plain ih =>
      simp only [Bool.and_eq_true, bne_iff_ne] at shares
      obtain ⟨⟨notMark, slash⟩, shares⟩ := shares
      simp only [List.length_cons] at enough
      obtain ⟨less, rfl⟩ : ∃ less, fuel = less + 1 := ⟨fuel - 1, by omega⟩
      rw [List.cons_append, readText, if_neg notMark, if_neg slash]
      split
      · exact .inl rfl
      · rw [Expr.unescape]
        · exact (ih shares less (by omega)).behind (.inl rfl)
        · exact fun _ _ same => absurd same slash

/-- A quoted text that can be read at all reaches up to its closing quote. -/
theorem at_quoted {mark : Char} (quote : mark ∈ ['"', '\'']) {body : List Char}
    (shares : sharesText mark body = true) (stands : cursor.At (mark :: (body ++ mark :: rest))) :
    cursor.token = .unreadable ∨
      cursor.token = .text (String.ofList (Expr.unescape body)) ∧ cursor.rest = rest := by
  have solid : ∀ c ∈ ['"', '\''], isSolid c = true := Text.forall_of_all (by decide)
  have reads : readToken (mark :: (body ++ mark :: rest)) =
      quoteToken (readText mark ((body ++ mark :: rest).length + 1) (body ++ mark :: rest)) := by
    simp only [List.mem_cons, List.not_mem_nil, or_false] at quote
    rw [readToken, if_pos quote]
  have enough : body.length < (body ++ mark :: rest).length + 1 := by
    rw [List.length_append]
    omega
  have quoted : Quoted (readText mark _ (body ++ mark :: rest)) (Expr.unescape body) rest :=
    quoted_readText quote shares enough
  rcases quoted with none | ⟨units, some, whole, means⟩
  · rw [none] at reads
    exact .inl (starts_of_readToken (solid mark quote) reads cursor stands).1
  · rw [some] at reads
    have text : textOf units = String.ofList (Expr.unescape body) := by rw [textOf, whole, means]
    rw [← text]
    exact .inr (starts_of_readToken (solid mark quote) reads cursor stands)

end UiDoc.Script
