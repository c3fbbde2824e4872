import Mathlib.Algebra.Ring.Nat
import UiDoc.Proofs.Decimal.Shape
import UiDoc.Proofs.Script.Lexing

/-!
# Decimal numerals in a script

A script reads a decimal numeral as the number that the numeral stands for by itself, unless a
further digit stands behind a zero at its start, or the numeral is a long row of digits.
-/

namespace UiDoc.Script

open Decimal (ExponentText)

variable {ds tail rest whole exponent short sign : List Char} {c : Char}

theorem isDigitIn_of_mem (digit : c ∈ Text.digits) : isDigitIn 10 c = true := by
  have all : ∀ c ∈ Text.digits, isDigitIn 10 c = true := Text.forall_of_all (by decide)
  exact all c digit

/-- No digit of a numeral stands at the start of the text. -/
def EndsDigits (tail : List Char) : Prop :=
  ∀ c ∈ tail.head?, isDigitIn 10 c = false ∧ c ≠ '_'

theorem readDigits_append (all : ∀ c ∈ ds, c ∈ Text.digits) (ends : EndsDigits tail)
    (behind : Bool) : readDigits 10 behind (ds ++ tail) = ⟨ds, true, tail⟩ := by
  induction ds generalizing behind with
  | nil =>
      cases tail with
      | nil => rfl
      | cons c tail =>
          obtain ⟨other, line⟩ := ends c rfl
          rw [List.nil_append, readDigits, if_neg (by simp [other]), if_neg (by simp [line])]
  | cons c ds ih =>
      obtain ⟨digit, all⟩ := List.forall_mem_cons.1 all
      rw [List.cons_append, readDigits, if_pos (isDigitIn_of_mem digit), ih all]

/-- A text that may stand behind an operand. -/
def Ends (rest : List Char) : Prop :=
  ∀ c ∈ rest.head?, c ∈ stops

/-- What may stand behind an operand continues no numeral. -/
theorem apart_of_stops (stop : c ∈ stops) :
    isDigitIn 10 c = false ∧ Text.isIdentifierStart c = false ∧
      c ∉ ['.', '_', 'e', 'E', 'n', 'o', 'O', 'b', 'B', 'x', 'X'] := by
  have all : ∀ c ∈ stops, isDigitIn 10 c = false ∧
      c ∉ ['.', '_', 'e', 'E', 'n', 'o', 'O', 'b', 'B', 'x', 'X'] :=
    Text.forall_of_all rfl
  refine ⟨(all c stop).1, ?_, (all c stop).2⟩
  rw [Bool.eq_false_iff]
  intro start
  have part := Text.isIdentifierPart_of_isIdentifierStart start
  rw [isIdentifierPart_of_stops stop] at part
  cases part

theorem Ends.endsDigits (ends : Ends rest) : EndsDigits rest := fun c first => by
  obtain ⟨digit, -, other⟩ := apart_of_stops (ends c first)
  exact ⟨digit, fun same => other (by simp [same])⟩

theorem Ends.numeralToken (ends : Ends rest) (token : Token) :
    numeralToken token true rest = some (token, rest) := by
  have last : endsNumeral rest = true := by
    cases rest with
    | nil => rfl
    | cons c rest =>
        obtain ⟨digit, start, -⟩ := apart_of_stops (ends c rfl)
        simp [endsNumeral, digit, start]
  simp [Script.numeralToken, last]

theorem readExponentOf_append (signs : sign ∈ [[], ['+'], ['-']]) (filled : ds ≠ [])
    (all : ∀ c ∈ ds, c ∈ Text.digits) (ends : Ends rest) :
    readExponentOf (sign ++ ds ++ rest) = ⟨'e' :: (sign ++ ds), true, rest⟩ := by
  have digits := readDigits_append all ends.endsDigits false
  cases ds with
  | nil => exact absurd rfl filled
  | cons c ds =>
      have notSign : c ≠ '+' ∧ c ≠ '-' := by
        have each : ∀ c ∈ Text.digits, c ≠ '+' ∧ c ≠ '-' := Text.forall_of_all (by decide)
        exact each c (all c (List.mem_cons_self ..))
      simp only [List.mem_cons, List.not_mem_nil, or_false] at signs
      rcases signs with rfl | rfl | rfl
      · simp only [List.nil_append, List.cons_append] at digits ⊢
        rw [readExponentOf]
        · simp [digits]
        · exact fun _ same => notSign.1 (List.cons.inj same).1
        · exact fun _ same => notSign.2 (List.cons.inj same).1
      · simp only [List.nil_append, List.cons_append] at digits ⊢
        simp [readExponentOf, digits]
      · simp only [List.nil_append, List.cons_append] at digits ⊢
        simp [readExponentOf, digits]

theorem readExponent_append (text : ExponentText exponent short) (ends : Ends rest) :
    readExponent (exponent ++ rest) = ⟨short, true, rest⟩ := by
  cases text with
  | absent =>
      cases rest with
      | nil => rfl
      | cons c rest =>
          obtain ⟨-, -, other⟩ := apart_of_stops (ends c rfl)
          simp only [List.mem_cons, List.not_mem_nil, or_false, not_or] at other
          rw [List.nil_append, readExponent]
          · exact fun _ same => other.2.2.1 (List.cons.inj same).1
          · exact fun _ same => other.2.2.2.1 (List.cons.inj same).1
  | written letter signs filled all =>
      have reads := readExponentOf_append signs filled all ends
      simp only [List.mem_cons, List.not_mem_nil, or_false] at letter
      rcases letter with rfl | rfl
      · exact reads
      · exact reads

/-- Behind digits may stand an exponent. -/
theorem endsDigits_exponent (text : ExponentText exponent short) (ends : Ends rest) :
    EndsDigits (exponent ++ rest) := by
  cases text with
  | absent => exact ends.endsDigits
  | written letter =>
      intro c first
      cases first
      have all : ∀ c ∈ ['e', 'E'], isDigitIn 10 c = false ∧ c ≠ '_' :=
        Text.forall_of_all (by decide)
      exact all _ letter

/-- A fraction and an exponent behind it are read to their end. -/
theorem readFraction_append {fraction : List Char} (all : ∀ c ∈ fraction, c ∈ Text.digits)
    (text : ExponentText exponent short) (ends : Ends rest) :
    readFraction whole true (fraction ++ (exponent ++ rest)) =
      some (decimalToken (whole ++ '.' :: (fraction ++ short)), rest) := by
  simp only [readFraction]
  rw [readDigits_append all (endsDigits_exponent text ends), readExponent_append text ends]
  simp only [Bool.and_self]
  rw [ends.numeralToken, List.append_assoc, List.cons_append]

/-- Where no point follows, digits and an exponent behind them are read to their end. -/
theorem readDecimal_whole (all : ∀ c ∈ whole, c ∈ Text.digits)
    (text : ExponentText exponent short) (ends : Ends rest) :
    readDecimal (whole ++ (exponent ++ rest)) =
      some (if short = [] then .number (integerValue 10 whole)
        else decimalToken (whole ++ short), rest) := by
  have apart : ∀ c ∈ (exponent ++ rest).head?, c ≠ 'n' ∧ c ≠ '.' := by
    cases text with
    | absent =>
        intro c first
        obtain ⟨-, -, other⟩ := apart_of_stops (ends c first)
        simp only [List.mem_cons, List.not_mem_nil, or_false, not_or] at other
        exact ⟨other.2.2.2.2.1, other.1⟩
    | written letter =>
        intro c first
        cases first
        have all : ∀ c ∈ ['e', 'E'], c ≠ 'n' ∧ c ≠ '.' := Text.forall_of_all (by decide)
        exact all _ letter
  simp only [readDecimal]
  rw [readDigits_append all (endsDigits_exponent text ends)]
  simp only
  split
  case h_1 same => exact absurd rfl (apart 'n' (by rw [same]; rfl)).1
  case h_2 same => exact absurd rfl (apart '.' (by rw [same]; rfl)).2
  case h_3 =>
    rw [readExponent_append text ends]
    simp only [Bool.and_self, List.isEmpty_iff]
    exact ends.numeralToken _

/-- Digits, a point, a fraction and an exponent are read to their end. -/
theorem readDecimal_point {fraction : List Char} (all : ∀ c ∈ whole, c ∈ Text.digits)
    (behind : ∀ c ∈ fraction, c ∈ Text.digits) (text : ExponentText exponent short)
    (ends : Ends rest) :
    readDecimal (whole ++ '.' :: (fraction ++ (exponent ++ rest))) =
      some (decimalToken (whole ++ '.' :: (fraction ++ short)), rest) := by
  have point : EndsDigits ('.' :: (fraction ++ (exponent ++ rest))) := fun c first => by
    cases first
    decide
  simp only [readDecimal]
  rw [readDigits_append all point]
  exact readFraction_append behind text ends

/-- No further digit stands behind a zero at the start. -/
def PlainWhole (whole : List Char) : Prop :=
  whole.head? = some '0' → whole = ['0']

theorem readNumeral_of_ne (point : c ≠ '.') (zero : c ≠ '0') (cs : List Char) :
    readNumeral (c :: cs) = readDecimal (c :: cs) := by
  rw [readNumeral]
  · exact fun _ same => point (List.cons.inj same).1
  · exact fun _ _ same => zero (List.cons.inj same).1

theorem readNumeral_zero (digit : isDigitIn 10 c = false)
    (other : c ∉ ['x', 'X', 'o', 'O', 'b', 'B', 'e', 'E', '_']) (cs : List Char) :
    readNumeral ('0' :: c :: cs) = readDecimal ('0' :: c :: cs) := by
  simp only [List.mem_cons, List.not_mem_nil, or_false, not_or] at other
  simp [readNumeral, digit, other]

/-- Digits that are no zero alone are read as a decimal numeral. -/
theorem readNumeral_of_digits (plain : PlainWhole whole) (filled : whole ≠ [])
    (all : ∀ c ∈ whole, c ∈ Text.digits) (single : whole ≠ ['0']) (behind : List Char) :
    readNumeral (whole ++ behind) = readDecimal (whole ++ behind) := by
  cases whole with
  | nil => exact absurd rfl filled
  | cons c ds =>
      apply readNumeral_of_ne
      · rintro rfl
        exact absurd (all '.' (List.mem_cons_self ..)) (by decide)
      · rintro rfl
        exact single (plain rfl)

theorem readNumeral_point {fraction : List Char} (plain : PlainWhole whole)
    (all : ∀ c ∈ whole, c ∈ Text.digits) (behind : ∀ c ∈ fraction, c ∈ Text.digits)
    (text : ExponentText exponent short) (ends : Ends rest) :
    readNumeral (whole ++ '.' :: (fraction ++ (exponent ++ rest))) =
      some (decimalToken (whole ++ '.' :: (fraction ++ short)), rest) := by
  have decimal := readDecimal_point all behind text ends
  by_cases vacant : whole = []
  · subst vacant
    exact readFraction_append behind text ends
  · by_cases single : whole = ['0']
    · subst single
      rw [← decimal]
      exact readNumeral_zero (by decide) (by decide) _
    · exact (readNumeral_of_digits plain vacant all single _).trans decimal

/-- A zero is read to its end, with an exponent or without. -/
theorem readNumeral_zero_append (text : ExponentText exponent short) (ends : Ends rest) :
    readNumeral ('0' :: (exponent ++ rest)) =
      some (if short = [] then .number (integerValue 10 ['0']) else decimalToken ('0' :: short),
        rest) := by
  cases text with
  | absent =>
      have zero : ∀ c ∈ ['0'], c ∈ Text.digits := Text.forall_of_all (by decide)
      have decimal := readDecimal_whole zero .absent ends
      cases rest with
      | nil => rfl
      | cons c rest =>
          obtain ⟨digit, -, other⟩ := apart_of_stops (ends c rfl)
          exact (readNumeral_zero digit (by simp_all) _).trans decimal
  | @written letter sign ds listed signs filled all =>
      have reads := readExponentOf_append signs filled all ends
      have exponent : readNumeral ('0' :: letter :: (sign ++ ds ++ rest)) =
          readLastExponent ['0'] (sign ++ ds ++ rest) := by
        simp only [List.mem_cons, List.not_mem_nil, or_false] at listed
        rcases listed with rfl | rfl
        · simp [readNumeral]
        · simp [readNumeral]
      rw [if_neg (List.cons_ne_nil _ _)]
      refine exponent.trans ?_
      rw [readLastExponent, reads]
      rfl

theorem readNumeral_whole (plain : PlainWhole whole) (filled : whole ≠ [])
    (all : ∀ c ∈ whole, c ∈ Text.digits) (text : ExponentText exponent short) (ends : Ends rest) :
    readNumeral (whole ++ (exponent ++ rest)) =
      some (if short = [] then .number (integerValue 10 whole)
        else decimalToken (whole ++ short), rest) := by
  by_cases single : whole = ['0']
  · subst single
    exact readNumeral_zero_append text ends
  · exact (readNumeral_of_digits plain filled all single _).trans (readDecimal_whole all text ends)

/-! ## The numbers of numerals -/

theorem digitsValue_lt (all : ∀ c ∈ ds, c ∈ Text.digits) (n : Nat) :
    ds.foldl (fun n c => 10 * n + (digitIn? 10 c).getD 0) n < (n + 1) * 10 ^ ds.length := by
  induction ds generalizing n with
  | nil => simp
  | cons c ds ih =>
      obtain ⟨digit, all⟩ := List.forall_mem_cons.1 all
      have each : ∀ c ∈ Text.digits, (digitIn? 10 c).getD 0 < 10 := Text.forall_of_all (by decide)
      have less := each c digit
      rw [List.foldl_cons, List.length_cons, Nat.pow_succ]
      calc
        _ < (10 * n + (digitIn? 10 c).getD 0 + 1) * 10 ^ ds.length := ih all _
        _ ≤ (10 * (n + 1)) * 10 ^ ds.length := Nat.mul_le_mul_right _ (by omega)
        _ = (n + 1) * (10 ^ ds.length * 10) := by rw [Nat.mul_comm 10, Nat.mul_assoc, Nat.mul_comm 10]

/-- A mantissa with room for more digits keeps all of them. -/
theorem pushAll_of_room (all : ∀ c ∈ ds, c ∈ Text.digits) (m : Decimal.Mantissa)
    (room : m.kept + ds.length ≤ Decimal.precision) (whole : m.inexact = false) (e : Int) :
    (m.pushAll ds).toDecimal e =
      ⟨ds.foldl (fun n c => 10 * n + (digitIn? 10 c).getD 0) m.digits,
        e + Int.ofNat m.dropped⟩ := by
  induction ds generalizing m with
  | nil => simp [Decimal.Mantissa.pushAll, Decimal.Mantissa.toDecimal, whole]
  | cons c ds ih =>
      obtain ⟨digit, all⟩ := List.forall_mem_cons.1 all
      have each : ∀ c ∈ Text.digits, Decimal.digit? c = digitIn? 10 c :=
        Text.forall_of_all (by decide)
      rw [List.length_cons] at room
      have pushed : m.pushAll (c :: ds) = (m.push ((digitIn? 10 c).getD 0)).pushAll ds := by
        rw [← each c digit]
        rfl
      have less : m.kept < Decimal.precision := by omega
      rw [pushed, List.foldl_cons, ih all]
      · simp [Decimal.Mantissa.push, less]
      · simp only [Decimal.Mantissa.push, if_pos less]
        split <;> omega
      · simp [Decimal.Mantissa.push, less, whole]

/-- A short row of digits stands for the same number in both languages. -/
theorem integerValue_eq (all : ∀ c ∈ whole, c ∈ Text.digits) (filled : whole ≠ [])
    (short : whole.length ≤ 19) {d : Decimal} (read : Decimal.readUnsigned whole = some d) :
    integerValue 10 whole = d.toFloat := by
  have nothing : Decimal.Stops [] := nofun
  have reads := Decimal.readUnsigned_whole all nothing (by simp)
  rw [List.append_nil, read, if_neg (by simp [filled])] at reads
  have same : d = ⟨digitsValue 10 whole, 0⟩ := by
    have pushed := pushAll_of_room all {} (by simp [Decimal.precision]; omega) rfl 0
    exact (Option.some.inj reads).trans pushed
  have less : digitsValue 10 whole < 10 ^ 19 := by
    have bound := digitsValue_lt all 0
    refine Nat.lt_of_lt_of_le bound ?_
    rw [Nat.zero_add, Nat.one_mul]
    exact Nat.pow_le_pow_right (by decide) short
  have digits : (Nat.toDigits 10 (digitsValue 10 whole)).length ≤ 19 :=
    (Nat.length_toDigits_le_iff (by decide) (by decide)).2 less
  rw [integerValue, if_pos (by exact short), same, Decimal.toFloat]
  simp only
  split
  case isTrue zero => rw [zero]; rfl
  case isFalse =>
    rw [if_neg (by simp; omega), if_neg (by simp)]
    rfl

/-- Whether a numeral stands for the same number in both languages. -/
def sharesNumeral (cs : List Char) : Bool :=
  !(cs.head? == some '0' && cs.tail.head?.any (isDigitIn 10)) &&
    (cs.length ≤ 19 || !cs.all (isDigitIn 10))

theorem plainWhole_of_sharesNumeral (all : ∀ c ∈ whole, c ∈ Text.digits)
    (shares : sharesNumeral (whole ++ tail) = true) : PlainWhole whole := by
  intro zero
  obtain ⟨ds, rfl⟩ := List.head?_eq_some_iff.1 zero
  cases ds with
  | nil => rfl
  | cons c ds =>
      have digit := isDigitIn_of_mem (all c (by simp))
      simp [sharesNumeral, digit] at shares

theorem decimalToken_of_readUnsigned {cs : List Char} {d : Decimal}
    (read : Decimal.readUnsigned cs = some d) : decimalToken cs = .number d.toFloat := by
  rw [decimalToken, read]

/-- A numeral stands for the same number in both languages. -/
theorem readNumeral_of_sharesNumeral {cs : List Char} {d : Decimal}
    (shares : sharesNumeral cs = true) (read : Decimal.readUnsigned cs = some d)
    (ends : Ends rest) : readNumeral (cs ++ rest) = some (.number d.toFloat, rest) := by
  obtain ⟨whole, point, exponent, short, rfl, all, text, points, readShort⟩ :=
    Decimal.exists_of_readUnsigned read
  have plain := plainWhole_of_sharesNumeral all shares
  rcases points with ⟨rfl, filled⟩ | ⟨fraction, rfl, behind, -⟩
  · simp only [List.nil_append, List.append_assoc] at shares read readShort ⊢
    rw [readNumeral_whole plain filled all text ends]
    cases text with
    | absent =>
        rw [List.append_nil] at shares read
        have digits : whole.all (isDigitIn 10) = true :=
          List.all_eq_true.2 fun c member => isDigitIn_of_mem (all c member)
        have row : whole.length ≤ 19 := by
          rw [sharesNumeral, digits] at shares
          simpa using (Bool.and_eq_true_iff.1 shares).2
        rw [if_pos rfl, integerValue_eq all filled row read]
    | written => rw [if_neg (List.cons_ne_nil _ _), decimalToken_of_readUnsigned readShort]
  · have reads := readNumeral_point plain all behind text ends
    have token := decimalToken_of_readUnsigned readShort
    rw [List.cons_append] at token
    rw [token] at reads
    simpa only [List.append_assoc, List.cons_append] using reads

/-- The text starts with a digit, perhaps behind a point. -/
def StartsNumeral : List Char → Prop
  | [] => False
  | c :: cs => c ∈ Text.digits ∨ c = '.' ∧ ∃ d ∈ cs.head?, d ∈ Text.digits

theorem startsNumeral_of_readUnsigned {cs : List Char} {d : Decimal}
    (read : Decimal.readUnsigned cs = some d) (rest : List Char) : StartsNumeral (cs ++ rest) := by
  obtain ⟨whole, point, exponent, -, rfl, all, -, points, -⟩ := Decimal.exists_of_readUnsigned read
  cases whole with
  | cons c ds => exact .inl (all c (List.mem_cons_self ..))
  | nil =>
      rcases points with ⟨-, filled⟩ | ⟨fraction, rfl, behind, filled⟩
      · exact absurd rfl filled
      · cases fraction with
        | nil => exact absurd rfl filled
        | cons c ds => exact .inr ⟨rfl, c, rfl, behind c (List.mem_cons_self ..)⟩

theorem starts_of_readNumeral {cs : List Char} {token : Token} (starts : StartsNumeral cs)
    (read : readNumeral cs = some (token, rest)) : Starts cs token rest := by
  cases cs with
  | nil => cases starts
  | cons c cs =>
      have numeral : isDigitIn 10 c = true ∨ (c = '.' ∧ cs.head?.any (isDigitIn 10) = true) := by
        rcases starts with digit | ⟨point, d, first, digit⟩
        · exact .inl (isDigitIn_of_mem digit)
        · refine .inr ⟨point, ?_⟩
          rw [Option.mem_def.1 first, Option.any_some, isDigitIn_of_mem digit]
      have listed : c ∈ '.' :: Text.digits :=
        List.mem_cons.2 (starts.symm.imp_left And.left)
      have all : ∀ c ∈ '.' :: Text.digits,
          isSolid c = true ∧ c ≠ '"' ∧ c ≠ '\'' ∧ c ≠ '`' := Text.forall_of_all (by decide)
      obtain ⟨solid, double, single, back⟩ := all c listed
      apply starts_of_readToken solid
      rw [readToken, if_neg (by simp [double, single]), if_neg back, if_pos numeral, read]

/-- A numeral is the first token of a text, and reaches up to what may stand behind an operand. -/
theorem starts_numeral {cs : List Char} {d : Decimal} (shares : sharesNumeral cs = true)
    (read : Decimal.readUnsigned cs = some d) (ends : Ends rest) :
    Starts (cs ++ rest) (.number d.toFloat) rest :=
  starts_of_readNumeral (startsNumeral_of_readUnsigned read rest)
    (readNumeral_of_sharesNumeral shares read ends)

end UiDoc.Script
