import UiDoc.Expr.Evaluation
import UiDoc.Proofs.Expr.PathLookup
import UiDoc.Proofs.Expr.Reading

/-!
# Paths in expressions and in bindings

An expression that is a path is looked up without the white space in it.  White space between quotes
is part of a key, so the expression finds what a binding of the same text finds exactly if its keys
have no white space but at their ends.
-/

namespace UiDoc.Expr

open Nesting (level)
open UiDoc.Path (Access accessChars accessChars_cons)

variable {cs ds head key trail : List Char} {c mark : Char} {accesses : List Access} {e : Expr}

/-! ## Tight paths are passed over -/

theorem hasBareQuote_of_forall_ne (noMark : ∀ c ∈ key, c ≠ mark) :
    hasBareQuote mark key = false := by
  induction key using hasBareQuote.induct with
  | case1 => rfl
  | case2 c cs ih =>
      rw [hasBareQuote]
      exact ih fun d member => noMark d (List.mem_cons_of_mem _ (List.mem_cons_of_mem _ member))
  | case3 c cs other ih =>
      obtain ⟨differs, noMark⟩ := List.forall_mem_cons.1 noMark
      rw [hasBareQuote, ih noMark]
      · simpa using differs
      · exact other

theorem shut_of_isPlain {n : Nat} (plain : ∀ c ∈ cs, isPlain c = true) : Shut (level n) cs := by
  refine shut_of_plain fun c member => ⟨?_, ?_⟩
  · exact not_mem_of_isPlain (plain c member) (by decide)
  · exact not_mem_of_isPlain (plain c member) (by decide)

theorem balanced_of_isPlain (plain : ∀ c ∈ cs, isPlain c = true) : Balanced cs :=
  balanced_of_plain fun c member => not_mem_of_isPlain (plain c member) (by decide)

theorem shut_chars {n : Nat} {a : Access} (tight : Tight a)
    (complete : ∀ key ∈ key? a, endsInEscape key = false) : Shut (level n) a.chars := by
  cases a with
  | point name =>
      have point : Shut (level n) ['.'] := shut_of_plain (Text.forall_of_all (by decide))
      exact point.append (shut_of_isPlain tight.2)
  | bracket text => exact (shut_of_isPlain tight).bracketed (by decide) (by decide)
  | quoted mark key =>
      rw [Access.chars_quoted]
      exact (shut_quoted tight.1 (hasBareQuote_of_forall_ne tight.2) (complete key rfl)).bracketed
        (by decide) (by decide)

theorem balanced_chars {a : Access} (tight : Tight a) : Balanced a.chars := by
  have bracketed {inner : List Char} (balanced : Balanced inner) :
      Balanced ('[' :: (inner ++ [']'])) :=
    have opening : Balanced ['['] := balanced_of_plain (Text.forall_of_all (by decide))
    have closing : Balanced [']'] := balanced_of_plain (Text.forall_of_all (by decide))
    opening.append (balanced.append closing)
  cases a with
  | point name =>
      have point : Balanced ['.'] := balanced_of_plain (Text.forall_of_all (by decide))
      exact point.append (balanced_of_isPlain tight.2)
  | bracket text => exact bracketed (balanced_of_isPlain tight)
  | quoted mark key =>
      rw [Access.chars_quoted]
      exact bracketed (balanced_quoted tight.1 fun member => tight.2 mark member rfl)

theorem shut_accessChars {n : Nat} (tight : ∀ a ∈ accesses, Tight a)
    (complete : ∀ key ∈ accesses.filterMap key?, endsInEscape key = false) :
    Shut (level n) (accessChars accesses) := by
  induction accesses with
  | nil => exact shut_nil
  | cons a accesses ih =>
      obtain ⟨first, others⟩ := List.forall_mem_cons.1 tight
      have keys (b : Access) (member : b ∈ a :: accesses) :
          ∀ key ∈ key? b, endsInEscape key = false :=
        fun key is => complete key (List.mem_filterMap.2 ⟨b, member, is⟩)
      rw [accessChars_cons]
      have here : Shut (level n) a.chars := shut_chars first (keys a (List.mem_cons_self ..))
      refine here.append (ih others fun key member => ?_)
      obtain ⟨b, member, is⟩ := List.mem_filterMap.1 member
      exact keys b (List.mem_cons_of_mem a member) key is

theorem balanced_accessChars (tight : ∀ a ∈ accesses, Tight a) :
    Balanced (accessChars accesses) := by
  induction accesses with
  | nil => exact balanced_nil
  | cons a accesses ih =>
      obtain ⟨first, others⟩ := List.forall_mem_cons.1 tight
      rw [accessChars_cons]
      exact (balanced_chars first).append (ih others)

theorem ne_word {path : String} (noWord : path ∉ Script.literalWords) :
    ∀ word ∈ Script.literalWords, path.toList ≠ word.toList := by
  rintro word listed same
  exact noWord (String.toList_inj.1 same ▸ listed)

/-- A path is passed over if white space stands only between its quotes and if no key hides the
quote behind it. -/
theorem plainLeaf_path {path : String} (is : PathForm.isPath path.toList = true)
    (tight : ∀ c ∈ outsideQuotes none path.toList, Text.isBlank c = false)
    (noWord : path ∉ Script.literalWords)
    (complete : ∀ key ∈ betweenQuotes none path.toList, endsInEscape key = false) :
    PlainLeaf path.toList (.path (String.ofList (Script.solid path.toList))) := by
  have other := ne_word noWord
  obtain ⟨head, accesses, parts, split⟩ := exists_parts is tight
  rw [parts] at other complete is ⊢
  rw [split.betweenQuotes] at complete
  refine ⟨?_, trim_accessChars split.plain split.tight, fun n => ?_, ?_⟩
  · obtain ⟨c, rest, rfl, start⟩ := split.starts
    rw [List.cons_append] at other is ⊢
    rw [leaf?, Script.readLiteral_of_isPlainStart start other]
    exact if_pos is
  · exact (shut_of_isPlain split.plain).append (shut_accessChars split.tight complete)
  · exact (balanced_of_isPlain split.plain).append (balanced_accessChars split.tight)

/-! ## Operators in paths -/

/-- The rest of a path may be read after any part at which a path may end. -/
theorem exists_complete {state : PathForm.State} (part : PathForm.completes state cs = true)
    (whole : PathForm.completes state (cs ++ ds) = true) :
    ∃ reached, reached.complete = true ∧ PathForm.completes reached ds = true := by
  induction cs generalizing state with
  | nil => exact ⟨state, part, whole⟩
  | cons c cs ih =>
      rw [List.cons_append, PathForm.completes] at whole
      rw [PathForm.completes] at part
      cases reads : state.next c with
      | none =>
          rw [reads] at part
          cases part
      | some next =>
          rw [reads] at part whole
          exact ih part whole

/-- The states in which a path may end, or may go on behind white space. -/
def endStates : List PathForm.State :=
  [.name, .digits, .closed, .beforePoint]

theorem exists_next_blank {state : PathForm.State} (listed : state ∈ endStates)
    (blank : Text.isBlank c = true) : ∃ next ∈ endStates, state.next c = some next := by
  have other : ∀ c ∈ Text.blanks, c ≠ '.' ∧ c ≠ '[' := Text.forall_of_all (by decide)
  obtain ⟨noPoint, noBracket⟩ := other c (Text.mem_blanks blank)
  have access : PathForm.State.access c = some .beforePoint := by
    rw [PathForm.State.access, if_neg noPoint, if_neg noBracket, if_pos blank]
  simp only [endStates, List.mem_cons, List.not_mem_nil, or_false] at listed
  rcases listed with rfl | rfl | rfl | rfl
  · rw [PathForm.State.next]
    split
    · exact ⟨.name, by decide, rfl⟩
    · exact ⟨.beforePoint, by decide, access⟩
  · rw [PathForm.State.next]
    split
    · exact ⟨.digits, by decide, rfl⟩
    · exact ⟨.beforePoint, by decide, access⟩
  · exact ⟨.beforePoint, by decide, access⟩
  · exact ⟨.beforePoint, by decide, if_pos blank⟩

/-- Outside of quotes a path has no sign of an operator, not even behind white space. -/
theorem completes_sign {state : PathForm.State} (sign : c ∈ signs) (listed : state ∈ endStates)
    (blank : ∀ c ∈ trail, Text.isBlank c) :
    PathForm.completes state (trail ++ c :: ds) = false := by
  have stops : ∀ c ∈ signs, ∀ state ∈ endStates, state.next c = none :=
    Text.forall_of_all (by decide)
  induction trail generalizing state with
  | nil => rw [List.nil_append, PathForm.completes, stops c sign state listed]
  | cons d trail ih =>
      obtain ⟨first, others⟩ := List.forall_mem_cons.1 blank
      obtain ⟨next, listed, reads⟩ := exists_next_blank listed first
      rw [List.cons_append, PathForm.completes, reads]
      exact ih listed others

theorem mem_endStates {state : PathForm.State} (complete : state.complete = true) :
    state ∈ endStates := by
  cases state with
  | name | digits | closed => decide
  | beforePoint | point | afterPoint | opened | index | quoted | full => cases complete

theorem isPath_of_leaf? (start : Text.isPlainStart c = true) (read : leaf? (c :: cs) = some e) :
    PathForm.isPath (c :: cs) = true := by
  by_cases known : ∃ word ∈ Script.literalWords, c :: cs = word.toList
  · obtain ⟨word, listed, same⟩ := known
    have each : ∀ word ∈ Script.literalWords, PathForm.isPath word.toList = true := by decide
    rw [same]
    exact each word listed
  · have noWord : ∀ word ∈ Script.literalWords, c :: cs ≠ word.toList :=
      fun word listed same => known ⟨word, listed, same⟩
    rw [leaf?, Script.readLiteral_of_isPlainStart start noWord] at read
    by_contra other
    rw [if_neg other] at read
    cases read

/-- What starts a path is no white space, and no parenthesis and no sign. -/
theorem other_of_isPlainStart (start : Text.isPlainStart c = true) :
    Text.isBlank c = false ∧ c ∉ ['(', '!', '|', '=', '<', '>'] := by
  have each : ∀ c ∈ Text.ascii, Text.isPlainStart c = true →
      Text.isBlank c = false ∧ c ∉ ['(', '!', '|', '=', '<', '>'] := Text.forall_of_all (by decide)
  exact each c (Text.mem_ascii_of_isPlainStart start) start

/-- An operand that starts like a path is a literal or a path. -/
theorem operand_of_isPlainStart (start : Text.isPlainStart c = true)
    (trimmed : Text.trim cs = c :: ds) : operand cs = leaf? (c :: ds) := by
  have other := (other_of_isPlainStart start).2
  simp only [List.mem_cons, List.not_mem_nil, or_false, not_or] at other
  rw [operand_of_ne other.2.1 trimmed, enclosed?_eq_none other.1]
  rfl

/-- A part of a path in front of a sign is no operand. -/
theorem operand_before_sign (path : PathForm.isPath (cs ++ c :: ds) = true) (sign : c ∈ signs) :
    operand cs = none := by
  cases cs with
  | nil => exact operand_of_blank rfl
  | cons d cs =>
      rw [List.cons_append, PathForm.isPath, Bool.and_eq_true] at path
      obtain ⟨start, whole⟩ := path
      obtain ⟨rest, trail, trimmed, rfl, blank⟩ :=
        Text.exists_trim_cons (other_of_isPlainStart start).1 cs
      rw [operand_of_isPlainStart start trimmed]
      cases read : leaf? (d :: rest) with
      | none => rfl
      | some e =>
          -- the operand would be a path by itself, behind which only a point or a bracket follows
          have part := isPath_of_leaf? start read
          rw [PathForm.isPath, Bool.and_eq_true] at part
          rw [List.append_assoc] at whole
          obtain ⟨reached, complete, behind⟩ := exists_complete part.2 whole
          rw [completes_sign sign (mem_endStates complete) blank] at behind
          cases behind

theorem head_sign (comparison : Comparison) :
    ∃ c rest, comparison.sign.toList = c :: rest ∧ c ∈ signs := by
  cases comparison <;> exact ⟨_, _, rfl, by decide⟩

/-- A path is read as a path if it is read at all. -/
theorem parseChars_path (path : PathForm.isPath cs = true) (trimmed : Text.trim cs = cs)
    (noWord : ∀ word ∈ Script.literalWords, cs ≠ word.toList) (read : parseChars cs = some e) :
    e = .path (String.ofList (Script.solid cs)) := by
  cases cs with
  | nil => cases path
  | cons c cs =>
      have start : Text.isPlainStart c = true := by
        rw [PathForm.isPath, Bool.and_eq_true] at path
        exact path.1
      have noParen : c ≠ '(' := fun same => (other_of_isPlainStart start).2 (by simp [same])
      have same : bare (c :: cs) = c :: cs :=
        bare_of_trimmed trimmed (enclosed?_eq_none noParen cs)
      have whole : operand (c :: cs) = some e := by
        refine operand_of_parseChars same (fun left right found => ?_)
          (fun left comparison right found => ?_) read
        · obtain ⟨tail, split, sign⟩ := splitOperator_eq found
          rw [fallback?_eq sign] at split
          exact operand_before_sign (split ▸ path) (by decide)
        · obtain ⟨tail, split, sign⟩ := splitOperator_eq found
          obtain ⟨d, rest, signed, listed⟩ := head_sign comparison
          rw [comparison?_eq sign, signed, List.cons_append] at split
          exact operand_before_sign (split ▸ path) listed
      rw [operand_of_isPlainStart start trimmed, leaf?,
        Script.readLiteral_of_isPlainStart start noWord] at whole
      exact (Option.some.inj ((if_pos path).symm.trans whole)).symm

/-! ## Evaluating paths -/

/-- A supported path is looked up without the white space in it. -/
theorem eval?_of_isSupported {path : String} (is : PathForm.isPath path.toList = true)
    (trimmed : Text.trim path.toList = path.toList) (noWord : path ∉ Script.literalWords)
    (supported : isSupported path = true) (scope : Scope) :
    eval? scope path = some (scope.lookupChars (Script.solid path.toList)) := by
  obtain ⟨e, read⟩ := Option.isSome_iff_exists.1 supported
  obtain rfl := parseChars_path is trimmed (ne_word noWord) read
  rw [eval?, read, Option.map_some, Expr.eval, Scope.lookup, String.toList_ofList]

/-- A path without white space outside of its keys means to an expression what it means to a
binding, exactly if it is read at all and its keys have no white space but at their ends.  It is
read if no key hides the quote behind it. -/
theorem eval?_path {path : String} (is : PathForm.isPath path.toList = true)
    (tight : ∀ c ∈ outsideQuotes none path.toList, Text.isBlank c = false)
    (noWord : path ∉ Script.literalWords) :
    ((∀ scope : Scope, eval? scope path = some (scope.lookup path)) ↔
        isSupported path = true ∧
          ∀ key ∈ betweenQuotes none path.toList, ∀ c ∈ Text.trim key, Text.isBlank c = false) ∧
      ((∀ key ∈ betweenQuotes none path.toList, endsInEscape key = false) →
        isSupported path = true) := by
  obtain ⟨head, accesses, same, parts⟩ := exists_parts is tight
  have trimmed : Text.trim path.toList = path.toList :=
    same ▸ trim_accessChars parts.plain parts.tight
  have keys := lookupChars_solid parts
  rw [← same, ← parts.betweenQuotes, ← same] at keys
  refine ⟨⟨fun agree => ?_, ?_⟩, fun complete => ?_⟩
  · have supported : isSupported path = true := by
      have found := agree { data := .null }
      obtain ⟨e, read, -⟩ := Option.map_eq_some_iff.1 found
      exact Option.isSome_iff_exists.2 ⟨e, read⟩
    refine ⟨supported, keys.1 fun scope => ?_⟩
    have found := agree scope
    rw [eval?_of_isSupported is trimmed noWord supported] at found
    exact Option.some.inj found
  · rintro ⟨supported, tidy⟩ scope
    rw [eval?_of_isSupported is trimmed noWord supported, keys.2 tidy scope, Scope.lookup]
  · have leaf := plainLeaf_path is tight noWord complete
    exact Option.isSome_iff_exists.2 ⟨_, parseChars_of_whole (.operand (.leaf leaf))⟩

/-- Operators and brackets in keys, white space at the end of one, and a backslash that hides a
backslash. -/
theorem eval?_path_operators :
    let path := "o['||) '].c[\"a.b=='\"][0]['\\\\'].$"
    (PathForm.isPath path.toList = true ∧
        (∀ c ∈ outsideQuotes none path.toList, Text.isBlank c = false) ∧
          path ∉ Script.literalWords) ∧
      ∀ scope, eval? scope path = some (scope.lookup path) := by
  have is : PathForm.isPath "o['||) '].c[\"a.b=='\"][0]['\\\\'].$".toList = true := by decide
  have tight : ∀ c ∈ outsideQuotes none "o['||) '].c[\"a.b=='\"][0]['\\\\'].$".toList,
      Text.isBlank c = false := Text.forall_of_all (by decide)
  obtain ⟨agree, supported⟩ := eval?_path is tight (by decide)
  have tidy : ∀ key ∈ betweenQuotes none "o['||) '].c[\"a.b=='\"][0]['\\\\'].$".toList,
      ((Text.trim key).all fun c => decide (Text.isBlank c = false)) = true := by decide
  refine ⟨⟨is, tight, by decide⟩, agree.2 ⟨supported (by decide), fun key member => ?_⟩⟩
  exact Text.forall_of_all (tidy key member)

/-- A key with white space inside, and a key that hides the quote behind it in front of one with an
operator. -/
theorem eval?_ne_lookup :
    let scope : Scope :=
      { data := .obj [("o", .obj [("a b", .nat 1), ("ab", .nat 2)]),
          ("a", .obj [("\\", .obj [("]||", .nat 3)])])] }
    ∀ path ∈ ["o['a b']", "a['\\'][']||']"],
      (PathForm.isPath path.toList = true ∧
          (∀ c ∈ outsideQuotes none path.toList, Text.isBlank c = false) ∧
            path ∉ Script.literalWords) ∧
        eval? scope path ≠ some (scope.lookup path) := by
  intro scope
  have differ : ∀ path, (eval? scope path).map (Option.map Json.print) ≠
      some ((scope.lookup path).map Json.print) → eval? scope path ≠ some (scope.lookup path) := by
    intro path differs same
    rw [same] at differs
    exact differs rfl
  have shown : ∀ path ∈ ["o['a b']", "a['\\'][']||']"],
      (eval? scope path).map (Option.map Json.print) ≠
        some ((scope.lookup path).map Json.print) := by decide +kernel
  have plain : ∀ path ∈ ["o['a b']", "a['\\'][']||']"], PathForm.isPath path.toList = true ∧
      (∀ c ∈ outsideQuotes none path.toList, Text.isBlank c = false) ∧
        path ∉ Script.literalWords :=
    List.forall_mem_cons.2 ⟨⟨by decide, Text.forall_of_all (by decide), by decide⟩,
      List.forall_mem_singleton.2 ⟨by decide, Text.forall_of_all (by decide), by decide⟩⟩
  exact fun path listed => ⟨plain path listed, differ path (shown path listed)⟩

end UiDoc.Expr
