import UiDoc.Proofs.Binary64.Whole
import UiDoc.Proofs.Decimal.Shape
import UiDoc.Proofs.Script.Costs
import UiDoc.Proofs.Script.Sources
import UiDoc.Proofs.Text.Units

/-!
# Positions of characters in a script

An index between brackets and the argument of `charAt` count UTF-16 units, as lengths do.  A slice,
a substring and the result of `indexOf` count characters.
-/

namespace UiDoc

/-! ## Positions as numbers -/

namespace Value

theorem ofFloat_ofNat {n : Nat} (small : n < 2 ^ 53) : ofFloat (Float.ofNat n) = .nat n := by
  have whole : Binary64.isInteger (Float.ofNat n) = true := Binary64.isInteger_ofNat small
  have bounded := Binary64.abs_ofNat_lt small
  rw [ofFloat, if_pos (by simp [whole, bounded]), Binary64.toInt64_ofNat small]
  rfl

end Value

namespace Script

variable {m n : Nat} {α : Type}

theorem sum_nat (small : m + n < 2 ^ 53) :
    sum (some (.nat m)) (some (.nat n)) = .ok (some (.nat (m + n))) := by
  calc sum (some (.nat m)) (some (.nat n))
    _ = .ok (some (Value.ofFloat (Float.ofNat m + Float.ofNat n))) := rfl
    _ = .ok (some (.nat (m + n))) := by
      rw [Binary64.ofNat_add_ofNat small, Value.ofFloat_ofNat small]

theorem position_ofNat (small : n < 2 ^ 53) (length : Nat) :
    position length (Float.ofNat n) = min n length := by
  have number := Binary64.isNaN_ofNat small
  rw [position, number, if_neg Bool.false_ne_true, if_neg (Binary64.not_ofNat_lt_zero small),
    Binary64.toCount_ofNat small]

theorem between_succ (n : Nat) (items : List α) : between n (n + 1) items = items[n]?.toList := by
  rw [between, List.drop_take, Nat.add_sub_cancel_left, List.take_one, List.head?_drop]

/-- Positions behind the end are moved to the end, so that nothing stands between them. -/
theorem between_min (n : Nat) (items : List α) :
    between (min n items.length) (min (n + 1) items.length) items = items[n]?.toList := by
  by_cases within : n < items.length
  · rw [Nat.min_eq_left (Nat.le_of_lt within), Nat.min_eq_left within, between_succ]
  · have behind := Nat.le_of_not_lt within
    rw [Nat.min_eq_right behind, Nat.min_eq_right (Nat.le_succ_of_le behind), between,
      List.drop_take, Nat.sub_self, List.take_zero, List.getElem?_eq_none behind]
    rfl

/-! ## Methods with a position -/

/-- The text of a character, or the empty text. -/
def charText (found : Option Char) : Value :=
  textValue found.toList

variable {cs : List Char} {c : Char}

theorem applyToText_charAt (small : n < 2 ^ 53) :
    Method.charAt.applyToText cs [.value (some (.nat n))] = .ok (charText (Text.unitAt? cs n)) := by
  have number : numberArgument [.value (some (.nat n))] 0 = Float.ofNat n := rfl
  simp only [Method.applyToText, number, if_pos (Binary64.zero_le_ofNat small),
    Binary64.toCount_ofNat small]
  rfl

/-- The arguments of a slice of one character. -/
def oneFrom (n : Nat) : List Arg :=
  [.value (some (.nat n)), .value (some (.nat (n + 1)))]

theorem numberArgument?_oneFrom (n : Nat) :
    numberArgument? (oneFrom n) 0 = some (Float.ofNat n) ∧
      numberArgument? (oneFrom n) 1 = some (Float.ofNat (n + 1)) :=
  ⟨rfl, rfl⟩

theorem applyToText_slice (small : n + 1 < 2 ^ 53) :
    Method.slice.applyToText cs (oneFrom n) = .ok (charText cs[n]?) := by
  obtain ⟨first, second⟩ := numberArgument?_oneFrom n
  have order : max (min n cs.length) (min (n + 1) cs.length) = min (n + 1) cs.length := by omega
  simp only [Method.applyToText, sliceBounds, first, second, Option.map_some, Option.getD_some,
    position_ofNat small, position_ofNat (Nat.lt_of_succ_lt small), order, between_min]
  rfl

theorem applyToText_substring (small : n + 1 < 2 ^ 53) :
    Method.substring.applyToText cs (oneFrom n) = .ok (charText cs[n]?) := by
  obtain ⟨first, second⟩ := numberArgument?_oneFrom n
  have below : min (min n cs.length) (min (n + 1) cs.length) = min n cs.length := by omega
  have above : max (min n cs.length) (min (n + 1) cs.length) = min (n + 1) cs.length := by omega
  simp only [Method.applyToText, Script.substring, first, second, Option.map_some,
    Option.getD_some, textPosition, Binary64.toCount_ofNat small,
    Binary64.toCount_ofNat (Nat.lt_of_succ_lt small), below, above, between_min]
  rfl

theorem applyToText_indexOf (member : c ∈ cs) :
    Method.indexOf.applyToText cs [.value (some (.str (String.singleton c)))] =
      .ok (some (.nat (cs.idxOf c))) := by
  have pattern : textArgument [.value (some (.str (String.singleton c)))] 0 = [c] := by
    simp [textArgument, textArgument?, argument, Arg.toValue, Value.jsonText]
  simp only [Method.applyToText, pattern, Text.find?_char member]
  rfl

theorem text_nat (n : Nat) :
    Value.text (some (.nat n)) = String.ofList (Nat.toDigits 10 n) := rfl

theorem access_unit {s : String} (small : n < 2 ^ 64) (found : Text.unitAt? s.toList n = some c)
    (optional : Bool) :
    access (some (.str s)) (Value.text (some (.nat n))) optional = .ok (charText (some c)) := by
  have digits : ∀ c ∈ Nat.toDigits 10 n, c.isDigit = true :=
    fun c => Nat.isDigit_of_mem_toDigits (by decide) (by decide)
  have noLength : Value.text (some (.nat n)) ≠ "length" := by
    rw [text_nat]
    intro same
    have letters : Nat.toDigits 10 n = "length".toList := by rw [← same, String.toList_ofList]
    exact absurd (digits 'l' (letters ▸ List.mem_cons_self ..)) (by decide)
  rw [access]
  · rw [Path.step, if_neg noLength, Path.index?, text_nat, String.toList_ofList,
      Decimal.readCount_toDigits small, Option.bind_some, found]
    rfl
  · exact nofun

theorem takes_built_charText (found : Option Char) :
    (Run.built (charText found)).Takes 0 (charText found) := by
  apply Run.takes_built_text
  cases found with
  | none => decide
  | some c =>
      have short : (String.ofList [c]).utf8ByteSize ≤ 4 := by
        simpa using c.utf8Size_le_four
      exact Nat.le_trans short (by decide)

/-! ## Scripts -/

/-- A call of a method of `s` with some arguments. -/
def methodCall (name : String) (arguments : List Tree) : Tree :=
  .call (.member (.name "s") name false) (arguments.map .item) false

/-- A call of a method with `i` and the number behind it. -/
def callOneFrom (name : String) : Tree :=
  methodCall name [.name "i", .binary .add (.name "i") (.number (Float.ofNat 1))]

/-- The scripts that ask for one position of a text, with their trees. -/
def positionScripts : List (String × Tree) := [
  ("s[i]", .index (.name "s") (.name "i") false),
  ("s.charAt(i)", methodCall "charAt" [.name "i"]),
  ("s.charAt(s.indexOf(c))", methodCall "charAt" [methodCall "indexOf" [.name "c"]]),
  ("s.slice(i, i + 1)", callOneFrom "slice"),
  ("s.substring(i, i + 1)", callOneFrom "substring")]

theorem parse?_positionScripts {source : String} {tree : Tree}
    (listed : (source, tree) ∈ positionScripts) : Tree.parse? source = some tree := by
  have read : (positionScripts.all fun script =>
      (Tree.parse? script.1).any script.2.alike) = true := by decide +kernel
  exact Tree.parse?_of_alike (List.all_eq_true.1 read _ listed)

theorem compile_index :
    Program.compile? "s[i]" = some ⟨.index (.name "s") (.name "i") false, ["s", "i"]⟩ :=
  Program.compile?_of_parse (parse?_positionScripts (.head _)) rfl rfl

theorem compile_charAt :
    Program.compile? "s.charAt(i)" =
      some ⟨.method (.name "s") .charAt false [.name "i"], ["s", "i"]⟩ :=
  Program.compile?_of_parse (parse?_positionScripts (.tail _ (.head _))) rfl rfl

theorem compile_indexOf :
    Program.compile? "s.charAt(s.indexOf(c))" =
      some ⟨.method (.name "s") .charAt false [.method (.name "s") .indexOf false [.name "c"]],
        ["s", "c"]⟩ :=
  Program.compile?_of_parse (parse?_positionScripts (.tail _ (.tail _ (.head _)))) rfl rfl

theorem compile_callOneFrom {source name : String} {method : Method}
    (listed : (source, callOneFrom name) ∈ positionScripts)
    (named : Method.named? name = some method) :
    Program.compile? source =
      some ⟨.method (.name "s") method false
        [.name "i", .binary .add (.name "i") (.literal (.nat 1))], ["s", "i"]⟩ := by
  refine Program.compile?_of_parse (parse?_positionScripts listed) ?_ rfl
  have plain : Term.owner? (.name "s") = none := rfl
  simp only [callOneFrom, methodCall, List.map_cons, List.map_nil, Term.ofTree?, plain, named,
    ← Value.ofFloat_ofNat (by decide : 1 < 2 ^ 53)]
  rfl

theorem compile_slice :
    Program.compile? "s.slice(i, i + 1)" =
      some ⟨.method (.name "s") .slice false
        [.name "i", .binary .add (.name "i") (.literal (.nat 1))], ["s", "i"]⟩ :=
  compile_callOneFrom (.tail _ (.tail _ (.tail _ (.head _)))) rfl

theorem compile_substring :
    Program.compile? "s.substring(i, i + 1)" =
      some ⟨.method (.name "s") .substring false
        [.name "i", .binary .add (.name "i") (.literal (.nat 1))], ["s", "i"]⟩ :=
  compile_callOneFrom (.tail _ (.tail _ (.tail _ (.tail _ (.head _))))) rfl

/-! ## Runs -/

section Runs

variable {cache : Cache} {scope : Scope} {s : String} {i : Nat}

/-- The arguments `i` and `i + 1` take five steps. -/
theorem takes_oneFrom (index : scopeValue? scope "i" = some (.nat i)) (small : i + 1 < 2 ^ 53) :
    (evalArguments scope [.name "i", .binary .add (.name "i") (.literal (.nat 1))]).Takes
      (1 + (1 + (1 + 1) + 0)) (oneFrom i) :=
  takes_argument nofun (takes_name index) (takes_argument nofun
    (takes_binary (takes_name index) (takes_literal _) (sum_nat small)) takes_noArguments)

theorem Cache.evaluate_index (faithful : cache.Faithful) (small : i < 2 ^ 53)
    (text : scopeValue? scope "s" = some (.str s)) (index : scopeValue? scope "i" = some (.nat i))
    (unit : Text.unitAt? s.toList i = some c) (args : List Value) :
    (cache.evaluate "s[i]" scope args).1 = some (charText (some c)) := by
  have known : ∀ name ∈ ["s", "i"], (scopeValue? scope name).isSome = true := by simp [text, index]
  have reached := access_unit (Nat.lt_trans small (by decide)) unit false
  exact Cache.evaluate_of_takes faithful compile_index known nofun
    (takes_index (takes_name text) (takes_name index) reached) (by decide) args

theorem Cache.evaluate_charAt (faithful : cache.Faithful) (small : i < 2 ^ 53)
    (text : scopeValue? scope "s" = some (.str s)) (index : scopeValue? scope "i" = some (.nat i))
    (args : List Value) :
    (cache.evaluate "s.charAt(i)" scope args).1 = some (charText (Text.unitAt? s.toList i)) := by
  have known : ∀ name ∈ ["s", "i"], (scopeValue? scope name).isSome = true := by simp [text, index]
  exact Cache.evaluate_of_takes faithful compile_charAt known nofun
    (takes_textMethod (takes_name text) (takes_argument nofun (takes_name index) takes_noArguments)
      (applyToText_charAt small) (takes_built_charText _)) (by decide) args

theorem Cache.evaluate_oneFrom (faithful : cache.Faithful) (small : i + 1 < 2 ^ 53)
    (text : scopeValue? scope "s" = some (.str s)) (index : scopeValue? scope "i" = some (.nat i))
    {source : String} {method : Method}
    (compiled : Program.compile? source =
      some ⟨.method (.name "s") method false
        [.name "i", .binary .add (.name "i") (.literal (.nat 1))], ["s", "i"]⟩)
    (gives : method.applyToText s.toList (oneFrom i) = .ok (charText s.toList[i]?))
    (args : List Value) :
    (cache.evaluate source scope args).1 = some (charText s.toList[i]?) := by
  have known : ∀ name ∈ ["s", "i"], (scopeValue? scope name).isSome = true := by simp [text, index]
  exact Cache.evaluate_of_takes faithful compiled known nofun
    (takes_textMethod (takes_name text) (takes_oneFrom index small) gives
      (takes_built_charText _)) (by decide) args

theorem Cache.evaluate_indexOf (faithful : cache.Faithful)
    (text : scopeValue? scope "s" = some (.str s))
    (sought : scopeValue? scope "c" = some (.str (String.singleton c))) (member : c ∈ s.toList)
    (small : s.toList.idxOf c < 2 ^ 53) (args : List Value) :
    (cache.evaluate "s.charAt(s.indexOf(c))" scope args).1 =
      some (charText (Text.unitAt? s.toList (s.toList.idxOf c))) := by
  have known : ∀ name ∈ ["s", "c"], (scopeValue? scope name).isSome = true := by simp [text, sought]
  have position : (eval scope (.method (.name "s") .indexOf false [.name "c"])).Takes
      (1 + (1 + (1 + 0))) (some (.nat (s.toList.idxOf c))) :=
    takes_textMethod (takes_name text) (takes_argument nofun (takes_name sought) takes_noArguments)
      (applyToText_indexOf member) (Run.takes_built_number _)
  exact Cache.evaluate_of_takes faithful compile_indexOf known nofun
    (takes_textMethod (takes_name text) (takes_argument nofun position takes_noArguments)
      (applyToText_charAt small) (takes_built_charText _)) (by decide) args

end Runs

/-- Let `c` be a character with one UTF-16 unit, and `i` the number of units in front of it.  An
index and `charAt` give `c`, whatever stands in front of it.  A slice and a substring give what
stands behind `i` characters, and `charAt` with `indexOf` gives the unit behind as many units as
there are characters in front of the first `c`.  All of them give `c` if each character in front of
it has one unit. -/
theorem Cache.evaluate_positions {cache : Cache} (faithful : cache.Faithful) {scope : Scope}
    {s : String} {front back : List Char} {c : Char} {i : Nat}
    (around : s.toList = front ++ c :: back)
    (narrow : Text.unitWidth c = 1) (before : Text.unitLength front = i) (small : i + 1 < 2 ^ 53)
    (text : scopeValue? scope "s" = some (.str s)) (index : scopeValue? scope "i" = some (.nat i))
    (sought : scopeValue? scope "c" = some (.str (String.singleton c))) (args : List Value) :
    let result (source : String) := (cache.evaluate source scope args).1
    (result "s[i]" = some (charText (some c)) ∧ result "s.charAt(i)" = some (charText (some c))) ∧
      (result "s.slice(i, i + 1)" = some (charText s.toList[i]?) ∧
        result "s.substring(i, i + 1)" = some (charText s.toList[i]?)) ∧
      result "s.charAt(s.indexOf(c))" =
        some (charText (Text.unitAt? s.toList (s.toList.idxOf c))) ∧
      ((∀ d ∈ front, Text.unitWidth d = 1) →
        ∀ source ∈ ["s[i]", "s.charAt(i)", "s.slice(i, i + 1)", "s.substring(i, i + 1)",
          "s.charAt(s.indexOf(c))"], result source = some (charText (some c))) := by
  intro result
  have smaller : i < 2 ^ 53 := Nat.lt_of_succ_lt small
  have unit : Text.unitAt? s.toList i = some c := by
    rw [around, ← before, Text.unitAt?_append narrow]
  have member : c ∈ s.toList := around ▸ List.mem_append_right _ (List.mem_cons_self ..)
  have first : s.toList.idxOf c < 2 ^ 53 := by
    have least := Text.idxOf_le_length c front back
    have most := Text.length_le_unitLength front
    rw [around]
    omega
  have bracket := Cache.evaluate_index faithful smaller text index unit args
  have charAt := Cache.evaluate_charAt faithful smaller text index args
  rw [unit] at charAt
  have slice := Cache.evaluate_oneFrom faithful small text index compile_slice
    (applyToText_slice small) args
  have substring := Cache.evaluate_oneFrom faithful small text index compile_substring
    (applyToText_substring small) args
  have indexOf := Cache.evaluate_indexOf faithful text sought member first args
  refine ⟨⟨bracket, charAt⟩, ⟨slice, substring⟩, indexOf, fun each => ?_⟩
  have behind : s.toList[i]? = some c := by
    rw [around, ← before, Text.getElem?_unitLength each]
  have found : Text.unitAt? s.toList (s.toList.idxOf c) = some c := by
    rw [around, Text.unitAt?_idxOf narrow each]
  rw [behind] at slice substring
  rw [found] at indexOf
  simp only [List.forall_mem_cons]
  exact ⟨bracket, charAt, slice, substring, indexOf, fun _ none => nomatch none⟩

/-- The character behind `é` has the same position in units and in characters. -/
theorem Cache.evaluate_positions_second :
    let scope : Scope := { data := .obj [("c", .str "b"), ("i", .nat 1), ("s", .str "éb😀")] }
    ∀ source ∈ ["s[i]", "s.charAt(i)", "s.slice(i, i + 1)", "s.substring(i, i + 1)",
      "s.charAt(s.indexOf(c))"],
      (({} : Cache).evaluate source scope []).1 = some (charText (some 'b')) := by
  intro scope
  have around : "éb😀".toList = ['é'] ++ 'b' :: ['😀'] := by decide
  exact (Cache.evaluate_positions faithful_empty around (by decide) rfl (by decide) rfl rfl rfl
    []).2.2.2 (Text.forall_of_all (by decide))

/-- The character behind one with two units is at the unit 2, but there is one character in front
of it. -/
theorem Cache.evaluate_positions_wide :
    let scope : Scope := { data := .obj [("c", .str "a"), ("i", .nat 2), ("s", .str "😀a")] }
    let result (source : String) := (({} : Cache).evaluate source scope []).1.map Value.text
    result "s[i]" = some "a" ∧ result "s.charAt(i)" = some "a" ∧
      result "s.slice(i, i + 1)" = some "" ∧ result "s.substring(i, i + 1)" = some "" ∧
      result "s.charAt(s.indexOf(c))" = some "\uFFFD" := by
  decide +kernel

end Script

end UiDoc
