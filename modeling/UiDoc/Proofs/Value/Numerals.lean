import UiDoc.Value
import UiDoc.Proofs.Binary64.Numbers
import UiDoc.Proofs.Decimal.Shape

/-!
# Texts that stand for numbers

A text that is not blank stands for a number exactly if it is a decimal numeral or, in any case of
letters, one of two words for infinity, with an optional sign in front and white space around it.
-/

namespace UiDoc

namespace Decimal

variable {cs : List Char}

/-! ## How numbers are written -/

/-- A decimal numeral without a sign: digits with an optional fraction, or a fraction alone, and an
optional exponent. -/
inductive Unsigned : List Char → Prop where
  | whole {whole exponent short : List Char} : whole ≠ [] → (∀ c ∈ whole, c ∈ Text.digits) →
      ExponentText exponent short → Unsigned (whole ++ exponent)
  | point {whole fraction exponent short : List Char} : whole ++ fraction ≠ [] →
      (∀ c ∈ whole, c ∈ Text.digits) → (∀ c ∈ fraction, c ∈ Text.digits) →
      ExponentText exponent short → Unsigned (whole ++ '.' :: (fraction ++ exponent))

/-- One of some words, in any case of letters. -/
def Spelled (words : List String) (cs : List Char) : Prop :=
  ∃ word ∈ words, cs.map asciiLower = word.toList

/-- A numeral or a word for infinity, without a sign. -/
def Numeric (cs : List Char) : Prop :=
  Unsigned cs ∨ Spelled ["inf", "infinity"] cs

/-- A text of some kind with an optional sign in front of it. -/
def Signed (kind : List Char → Prop) (cs : List Char) : Prop :=
  ∃ sign rest, cs = sign ++ rest ∧ sign ∈ [[], ['+'], ['-']] ∧ kind rest

theorem signs_cases {sign : List Char} (signs : sign ∈ [[], ['+'], ['-']]) :
    sign = [] ∨ sign = ['+'] ∨ sign = ['-'] := by
  simpa using signs

/-! ## Exponents -/

theorem ExponentText.stops_written {exponent short : List Char}
    (text : ExponentText exponent short) : Stops exponent ∧ exponent.head? ≠ some '.' := by
  cases text with
  | absent => exact ⟨nofun, nofun⟩
  | @written letter sign ds listed =>
      have letters : ∀ letter ∈ ['e', 'E'], letter ∉ Text.digits ∧ letter ≠ '.' :=
        Text.forall_of_all (by decide)
      obtain ⟨noDigit, noPoint⟩ := letters letter listed
      refine ⟨fun c first => ?_, by simpa using noPoint⟩
      cases first
      exact noDigit

section Digits

variable {ds : List Char}

theorem exists_readDigits (all : ∀ c ∈ ds, c ∈ Text.digits) (limit count acc : Nat) :
    ∃ n, readDigits limit count acc ds = (count + ds.length, n, []) := by
  induction ds generalizing count acc with
  | nil => exact ⟨acc, rfl⟩
  | cons c ds ih =>
      obtain ⟨digit, all⟩ := List.forall_mem_cons.1 all
      obtain ⟨d, read⟩ := Option.isSome_iff_exists.1 (digit?_of_mem digit)
      rw [readDigits, read]
      simp only [List.length_cons, Nat.add_comm ds.length, ← Nat.add_assoc]
      exact ih all ..

theorem exists_signedExponent (filled : ds ≠ []) (all : ∀ c ∈ ds, c ∈ Text.digits)
    (negative : Bool) : ∃ e, signedExponent negative ds = some (e, []) := by
  obtain ⟨n, read⟩ := exists_readDigits all exponentLimit 0 0
  obtain ⟨c, ds, rfl⟩ := List.exists_cons_of_ne_nil filled
  rw [signedExponent, read]
  simp

theorem readExponent_written {letter : Char} {sign : List Char} (listed : letter ∈ ['e', 'E'])
    (signs : sign ∈ [[], ['+'], ['-']]) (all : ∀ c ∈ ds, c ∈ Text.digits) :
    ∃ negative, readExponent (letter :: (sign ++ ds)) = signedExponent negative ds := by
  have letters : ∀ letter ∈ ['e', 'E'], letter = 'e' ∨ letter = 'E' :=
    Text.forall_of_all (by decide)
  have starts := letters letter listed
  rcases signs_cases signs with rfl | rfl | rfl
  · refine ⟨false, ?_⟩
    rw [List.nil_append, readExponent, if_pos starts]
    · rfl
    -- Digits do not start with a sign.
    all_goals
      rintro rest rfl
      exact absurd (all _ (List.mem_cons_self ..)) (by decide)
  · refine ⟨false, ?_⟩
    rw [List.singleton_append, readExponent, if_pos starts]
    rfl
  · refine ⟨true, ?_⟩
    rw [List.singleton_append, readExponent, if_pos starts]
    rfl

end Digits

/-- Every exponent that is written can be read. -/
theorem exists_lastExponent {exponent short : List Char} (text : ExponentText exponent short) :
    ∃ e, lastExponent? exponent = some e := by
  cases text with
  | absent => exact ⟨0, rfl⟩
  | written listed signs filled all =>
      obtain ⟨negative, read⟩ := readExponent_written listed signs all
      obtain ⟨e, same⟩ := exists_signedExponent filled all negative
      exact ⟨e, by rw [lastExponent?, read, same]⟩

/-! ## Numerals -/

/-- The numerals without a sign are the texts that can be read as one. -/
theorem isSome_readUnsigned : (readUnsigned cs).isSome = true ↔ Unsigned cs := by
  constructor
  · intro reads
    obtain ⟨d, read⟩ := Option.isSome_iff_exists.1 reads
    obtain ⟨whole, point, exponent, short, rfl, all, text, parts, -⟩ := exists_of_readUnsigned read
    rcases parts with ⟨rfl, filled⟩ | ⟨fraction, rfl, behind, filled⟩
    · exact .whole filled all text
    · exact .point filled all behind text
  · rintro (⟨filled, all, text⟩ | ⟨filled, all, behind, text⟩)
    · obtain ⟨e, last⟩ := exists_lastExponent text
      obtain ⟨stops, noPoint⟩ := text.stops_written
      rw [readUnsigned_whole all stops noPoint, if_neg (by simpa using filled), last]
      rfl
    · obtain ⟨e, last⟩ := exists_lastExponent text
      rw [readUnsigned_point all behind text.stops_written.1, if_neg (by simpa using filled), last]
      rfl

theorem Unsigned.starts (numeral : Unsigned cs) :
    ∃ c rest, cs = c :: rest ∧ c ∈ '.' :: Text.digits := by
  rcases numeral with ⟨filled, all, -⟩ | @⟨whole, -, -, -, filled, all, -, -⟩
  · obtain ⟨c, rest, rfl⟩ := List.exists_cons_of_ne_nil filled
    exact ⟨c, _, rfl, List.mem_cons_of_mem _ (all c (List.mem_cons_self ..))⟩
  · cases whole with
    | nil => exact ⟨'.', _, rfl, List.mem_cons_self ..⟩
    | cons c rest => exact ⟨c, _, rfl, List.mem_cons_of_mem _ (all c (List.mem_cons_self ..))⟩

/-! ## Words -/

theorem spelled_iff : Spelled ["inf", "infinity"] cs ↔
    String.ofList (cs.map asciiLower) = "inf" ∨ String.ofList (cs.map asciiLower) = "infinity" := by
  rw [← String.toList_inj, ← String.toList_inj, String.toList_ofList]
  simp [Spelled]

theorem Unsigned.not_nan (numeral : Unsigned cs) : String.ofList (cs.map asciiLower) ≠ "nan" := by
  intro word
  obtain ⟨c, rest, rfl, start⟩ := numeral.starts
  have kept : ∀ c ∈ '.' :: Text.digits, asciiLower c = c ∧ c ≠ 'n' :=
    Text.forall_of_all (by decide)
  obtain ⟨same, other⟩ := kept c start
  have letters : (c :: rest).map asciiLower = ['n', 'a', 'n'] := by
    rw [← String.toList_ofList (l := (c :: rest).map asciiLower), word]
    rfl
  rw [List.map_cons, same] at letters
  exact other (List.cons.inj letters).1

/-! ## Signs -/

theorem Numeric.bare (numeric : Numeric cs) : cs.head? ≠ some '+' ∧ cs.head? ≠ some '-' := by
  rcases numeric with numeral | ⟨word, listed, spelled⟩
  · obtain ⟨c, rest, rfl, start⟩ := numeral.starts
    have other : ∀ c ∈ '.' :: Text.digits, c ≠ '+' ∧ c ≠ '-' := Text.forall_of_all (by decide)
    simpa using other c start
  · have lower : (cs.map asciiLower).head? = some 'i' := by
      simp only [List.mem_cons, List.not_mem_nil, or_false] at listed
      rcases listed with rfl | rfl <;> rw [spelled] <;> rfl
    constructor
    all_goals
      intro first
      rw [List.head?_map, first] at lower
      exact absurd lower (by decide)

/-- A sign is split off in one way only if what may stand behind it has none. -/
theorem signed_iff {kind : List Char → Prop}
    (bare : ∀ cs, kind cs → cs.head? ≠ some '+' ∧ cs.head? ≠ some '-') :
    Signed kind cs ↔ kind (readSign cs).2 := by
  constructor
  · rintro ⟨sign, rest, rfl, signs, holds⟩
    rcases signs_cases signs with rfl | rfl | rfl
    · obtain ⟨noPlus, noMinus⟩ := bare rest holds
      rw [List.nil_append, readSign]
      · exact holds
      · rintro _ rfl
        exact noMinus rfl
      · rintro _ rfl
        exact noPlus rfl
    · exact holds
    · exact holds
  · intro holds
    fun_cases readSign cs with
    | case1 rest => exact ⟨['-'], rest, rfl, by decide, holds⟩
    | case2 rest => exact ⟨['+'], rest, rfl, by decide, holds⟩
    | case3 _ noMinus noPlus =>
        rw [readSign] at holds
        · exact ⟨[], cs, rfl, by decide, holds⟩
        · exact noMinus
        · exact noPlus

/-! ## What is read -/

theorem isNaN_withSign (negative : Bool) (x : Float) :
    (Binary64.withSign negative x).isNaN = x.isNaN := by
  cases negative with
  | false => rfl
  | true => exact Binary64.isNaN_neg x

theorem isNaN_toFloat (d : Decimal) : d.toFloat.isNaN = false := by
  rw [toFloat]
  split_ifs
  · rfl
  · decide +kernel
  · rfl
  · exact Binary64.isNaN_ofScientific ..

/-- What is read from a text is a number exactly if a numeral or a word for infinity is written
there, with an optional sign. -/
theorem isNaN_read : ((read cs).getD Binary64.notANumber).isNaN = false ↔ Signed Numeric cs := by
  have infinity : Binary64.infinity.isNaN = false := by decide +kernel
  have noNumber : ¬Binary64.notANumber.isNaN = false := by decide +kernel
  rw [signed_iff fun _ => Numeric.bare]
  rcases split : readSign cs with ⟨negative, rest⟩
  simp only [read, split]
  split_ifs with infinite undefined
  · exact iff_of_true ((isNaN_withSign ..).trans infinity) (.inr (spelled_iff.2 infinite))
  · refine iff_of_false noNumber ?_
    rintro (numeral | spelled)
    · exact numeral.not_nan undefined
    · exact infinite (spelled_iff.1 spelled)
  · rw [Numeric, or_iff_left fun spelled => infinite (spelled_iff.1 spelled),
      ← isSome_readUnsigned]
    cases readUnsigned rest with
    | none => exact iff_of_false noNumber Bool.false_ne_true
    | some d => exact iff_of_true ((isNaN_withSign ..).trans (isNaN_toFloat d)) rfl

end Decimal

namespace Value

/-- A text that is not blank stands for a number exactly if a numeral or a word for infinity is
written there, with an optional sign. -/
theorem number_text_iff (s : String) (filled : Text.trim s.toList ≠ []) :
    (toFloat (some (.str s))).isNaN = false ↔
      Decimal.Signed Decimal.Numeric (Text.trim s.toList) := by
  have read : toFloat (some (.str s)) =
      (Decimal.read (Text.trim s.toList)).getD Binary64.notANumber := by
    obtain ⟨c, cs, same⟩ := List.exists_cons_of_ne_nil filled
    rw [toFloat, jsonToFloat, textToFloat, same]
  rw [read, Decimal.isNaN_read]

theorem number_text_iff_fraction :
    Text.trim " -.5E+3\n".toList ≠ [] ∧ (toFloat (some (.str " -.5E+3\n"))).isNaN = false := by
  have filled : Text.trim " -.5E+3\n".toList ≠ [] := by decide
  have numeral : Decimal.Unsigned ".5E+3".toList := Decimal.isSome_readUnsigned.1 (by decide)
  exact ⟨filled, (number_text_iff _ filled).2 ⟨['-'], _, by decide, by decide, .inl numeral⟩⟩

/-- There are words beside `Infinity` that stand for a number. -/
theorem number_text_inf :
    Text.trim "inf".toList ≠ [] ∧
      ¬Decimal.Signed (fun cs => Decimal.Unsigned cs ∨ cs = "Infinity".toList)
        (Text.trim "inf".toList) ∧
      (toFloat (some (.str "inf"))).isNaN = false := by
  refine ⟨by decide, ?_, by decide +kernel⟩
  rintro ⟨sign, rest, same, signs, kind⟩
  have text : Text.trim "inf".toList = ['i', 'n', 'f'] := by decide
  rw [text] at same
  rcases Decimal.signs_cases signs with rfl | rfl | rfl
  · subst same
    rcases kind with numeral | word
    · have read := Decimal.isSome_readUnsigned.2 numeral
      exact absurd read (by decide)
    · exact absurd word (by decide)
  · cases same
  · cases same

end Value

end UiDoc
