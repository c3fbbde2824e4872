import UiDoc.Proofs.Expr.Grammar
import UiDoc.Proofs.Path.Accesses
import UiDoc.Proofs.Scope
import UiDoc.Proofs.Script.Numerals
import UiDoc.Script.Reader

/-!
# What expressions and scripts have in common

Most literals and paths of an expression are part of the language of scripts as well.  Here are
those that mean the same in both languages, and what they mean in an expression.
-/

namespace UiDoc.Script

variable {scope : Scope} {cs text name head rest : List Char} {segments : List String} {c : Char}

/-- A text is white space. -/
abbrev Blank (cs : List Char) : Prop :=
  ∀ c ∈ cs, Text.isBlank c

/-- Digits that stand for a number whose own text they are. -/
def isIndex (digits : List Char) : Bool :=
  digits.all (· ∈ Text.digits) && sharesNumeral digits &&
    (Decimal.readUnsigned digits).any fun d =>
      Value.text (some (Value.ofFloat d.toFloat)) == String.ofList digits

/-- The characters of a name between quotes, none of which is white space or has a meaning of its
own. -/
def isKey (mark : Char) (key : List Char) : Bool :=
  key.all fun c => c != mark && c != '\\' && !Text.isBlank c

/-- The text of accesses, and the segments that it consists of. -/
inductive Accesses : List Char → List String → Prop where
  | nil : Accesses [] []
  | point {lead trail name text : List Char} {segments : List String} :
      Blank lead → Blank trail → isName name = true → Accesses text segments →
      Accesses (lead ++ '.' :: (trail ++ (name ++ text))) (String.ofList name :: segments)
  | index {lead trail digits text : List Char} {segments : List String} :
      Blank lead → Blank trail → isIndex digits = true → Accesses text segments →
      Accesses ('[' :: (lead ++ (digits ++ (trail ++ ']' :: text))))
        (String.ofList digits :: segments)
  | key {mark : Char} {lead trail key text : List Char} {segments : List String} :
      mark ∈ ['"', '\''] → Blank lead → Blank trail → isKey mark key = true →
      Accesses text segments →
      Accesses ('[' :: (lead ++ (mark :: (key ++ mark :: (trail ++ ']' :: text)))))
        (String.ofList key :: segments)

/-- Words that no path of a script starts with. -/
def ownWords : List String :=
  reservedWords ++ ["await", "undefined", "NaN", "Infinity"]

/-- The words that are literals of an expression. -/
def literalWords : List String :=
  ["true", "false", "null", "undefined"]

/-- A literal or a path that means the same in an expression and in a script. -/
inductive Common (scope : Scope) : List Char → Prop where
  | word {word : String} : word ∈ literalWords → Common scope word.toList
  | quoted {mark : Char} {body : List Char} : mark ∈ ['"', '\''] → sharesText mark body = true →
      Common scope (mark :: (body ++ [mark]))
  | numeral {cs : List Char} {d : Decimal} : Decimal.readUnsigned cs = some d →
      sharesNumeral cs = true → Common scope cs
  /-- The number between the sign and the numeral must not be lost. -/
  | negative {cs : List Char} {d : Decimal} : Decimal.readUnsigned cs = some d →
      sharesNumeral cs = true → Value.jsonToFloat (Value.ofFloat d.toFloat) = d.toFloat →
      Common scope ('-' :: cs)
  | path {head text : List Char} {segments : List String} : isName head = true →
      String.ofList head ∉ ownWords → (String.ofList head = "data" → scope.dataIsRoot = false) →
      Accesses text segments → Common scope (head ++ text)
  | root : scope.dataIsRoot = true → Common scope "data".toList
  /-- The name must not be that of a layer, which an expression would take instead of the field. -/
  | field {lead trail name text : List Char} {segments : List String} : scope.dataIsRoot = true →
      (Record.names scope.context).Nodup → Blank lead → Blank trail → isName name = true →
      String.ofList name ≠ "data" → (String.ofList name = "state" → scope.state = none) →
      (String.ofList name = "bindings" → scope.bindings = none) → Accesses text segments →
      Common scope ("data".toList ++ (lead ++ '.' :: (trail ++ (name ++ text))))

/-! ## Characters -/

theorem not_blank_of_isIdentifierPart (part : Text.isIdentifierPart c = true) :
    Text.isBlank c = false := by
  rw [Bool.eq_false_iff]
  intro blank
  rw [Text.isIdentifierPart_of_mem_blanks (Text.mem_blanks blank)] at part
  cases part

/-- All characters of a name may continue one. -/
theorem parts_of_isName (is : isName name = true) : ∀ c ∈ name, Text.isIdentifierPart c = true := by
  cases name with
  | nil => cases is
  | cons c cs =>
      rw [isName, Bool.and_eq_true, List.all_eq_true] at is
      have start := Text.isIdentifierStart_of_isPlainStart is.1
      exact List.forall_mem_cons.2 ⟨Text.isIdentifierPart_of_isIdentifierStart start, is.2⟩

theorem ne_nil_of_isName (is : isName name = true) : name ≠ [] := by
  rintro rfl
  cases is

/-! ## The segments of accesses -/

/-- A text without white space. -/
def solid (cs : List Char) : List Char :=
  cs.filter fun c => !Text.isBlank c

@[simp] theorem solid_append (cs ds : List Char) : solid (cs ++ ds) = solid cs ++ solid ds :=
  List.filter_append ..

theorem solid_of_blank (blank : Blank cs) : solid cs = [] :=
  List.filter_eq_nil_iff.2 fun c member => by simp [blank c member]

theorem solid_of_not_blank (filled : ∀ c ∈ cs, Text.isBlank c = false) : solid cs = cs :=
  List.filter_eq_self.2 fun c member => by simp [filled c member]

theorem solid_cons (filled : Text.isBlank c = false) (cs : List Char) :
    solid (c :: cs) = c :: solid cs :=
  List.filter_cons_of_pos (by simp [filled])

theorem solid_name (is : isName name = true) : solid name = name :=
  solid_of_not_blank fun c member => not_blank_of_isIdentifierPart (parts_of_isName is c member)

theorem digits_of_isIndex (is : isIndex cs = true) : ∀ c ∈ cs, c ∈ Text.digits := by
  simp only [isIndex, Bool.and_eq_true, List.all_eq_true, decide_eq_true_eq] at is
  exact is.1.1

theorem dotless_of_isName (is : isName name = true) : ∀ c ∈ name, c ≠ '.' ∧ c ≠ '[' := by
  intro c member
  have part := parts_of_isName is c member
  constructor
  all_goals
    rintro rfl
    revert part
    decide

/-- White space inside of brackets is left out around what stands there. -/
theorem solid_bracket {lead trail : List Char} (blankLead : Blank lead) (blankTrail : Blank trail)
    (filled : ∀ c ∈ cs, Text.isBlank c = false) (text : List Char) :
    solid ('[' :: (lead ++ (cs ++ (trail ++ ']' :: text)))) = '[' :: (cs ++ ']' :: solid text) := by
  rw [solid_cons (by decide), solid_append, solid_of_blank blankLead, solid_append,
    solid_of_not_blank filled, solid_append, solid_of_blank blankTrail, solid_cons (by decide)]
  rfl

/-- Without white space, accesses are written one behind the other, and give the same segments. -/
theorem exists_accessChars (accesses : Accesses text segments) :
    ∃ written : List Path.Access, (∀ a ∈ written, a.Readable) ∧
      solid text = Path.accessChars written ∧ written.map Path.Access.segment = segments := by
  induction accesses with
  | nil => exact ⟨[], nofun, rfl, rfl⟩
  | @point lead trail name text segments blankLead blankTrail is accesses ih =>
      obtain ⟨written, readable, same, gives⟩ := ih
      have first : (Path.Access.point name).Readable := ⟨ne_nil_of_isName is, dotless_of_isName is⟩
      refine ⟨.point name :: written, List.forall_mem_cons.2 ⟨first, readable⟩, ?_, ?_⟩
      · rw [solid_append, solid_of_blank blankLead, solid_cons (by decide), solid_append,
          solid_of_blank blankTrail, solid_append, solid_name is, same]
        rfl
      · rw [List.map_cons, gives]
        rfl
  | @index lead trail digits text segments blankLead blankTrail is accesses ih =>
      obtain ⟨written, readable, same, gives⟩ := ih
      have all := digits_of_isIndex is
      have each : ∀ c ∈ Text.digits, Text.isBlank c = false ∧ c ≠ ']' ∧ c ∉ ['"', '\''] :=
        Text.forall_of_all (by decide)
      have whole : ∀ c ∈ digits, Text.isBlank c = false := fun c member => (each c (all c member)).1
      have first : (Path.Access.bracket digits).Readable :=
        ⟨fun c member => (each c (all c member)).2.1,
          fun c begins => (each c (all c (List.mem_of_mem_head? begins))).2.2⟩
      refine ⟨.bracket digits :: written, List.forall_mem_cons.2 ⟨first, readable⟩, ?_, ?_⟩
      · rw [solid_bracket blankLead blankTrail whole, same]
        simp [Path.Access.chars]
      · rw [List.map_cons, gives, Path.Access.segment, Text.trim_of_not_blank whole]
  | @key mark lead trail key text segments quote blankLead blankTrail is accesses ih =>
      obtain ⟨written, readable, same, gives⟩ := ih
      have marks : ∀ c ∈ ['"', '\''], Text.isBlank c = false := Text.forall_of_all (by decide)
      simp only [isKey, List.all_eq_true, Bool.and_eq_true, bne_iff_ne, Bool.not_eq_true'] at is
      have whole : ∀ c ∈ key, Text.isBlank c = false := fun c member => (is c member).2
      have filled : ∀ c ∈ mark :: (key ++ [mark]), Text.isBlank c = false := by
        simpa [or_imp, forall_and, marks mark quote] using whole
      have first : (Path.Access.quoted mark key).Readable :=
        ⟨quote, fun c member => (is c member).1.1⟩
      refine ⟨.quoted mark key :: written, List.forall_mem_cons.2 ⟨first, readable⟩, ?_, ?_⟩
      · have bracket := solid_bracket blankLead blankTrail filled text
        rw [same] at bracket
        simpa [Path.Access.chars] using bracket
      · rw [List.map_cons, gives, Path.Access.segment, Text.trim_of_not_blank whole]

/-- The segments of accesses without white space are those of the accesses. -/
theorem segmentsFrom_accesses (accesses : Accesses text segments) (before : List Char) :
    Path.segmentsFrom (.plain before) (solid text) = Path.plainSegment before ++ segments := by
  obtain ⟨written, readable, same, rfl⟩ := exists_accessChars accesses
  rw [same, Path.segmentsFrom_accessChars readable]

/-! ## What paths mean in an expression -/

theorem not_blank_of_mem_solid (member : c ∈ solid cs) : Text.isBlank c = false := by
  simpa using (List.mem_filter.1 member).2

theorem solid_point {lead : List Char} (blank : Blank lead) (cs : List Char) :
    solid (lead ++ '.' :: cs) = '.' :: solid cs := by
  rw [solid_append, solid_of_blank blank, solid_cons (by decide), List.nil_append]

/-- A first name ends where accesses start, and the segments behind it are theirs. -/
theorem splitHead_accesses (accesses : Accesses text segments) :
    (Path.splitHead (solid text)).1 = [] ∧
      Path.segmentsFrom (.plain []) (Path.splitHead (solid text)).2 = segments := by
  have written := segmentsFrom_accesses accesses []
  cases accesses with
  | nil => exact ⟨rfl, rfl⟩
  | point blank =>
      rw [solid_point blank] at written ⊢
      rw [Path.segmentsFrom, if_pos rfl] at written
      exact ⟨rfl, written⟩
  | index | key =>
      rw [solid_cons (by decide)] at written ⊢
      exact ⟨rfl, written⟩

/-- A name followed by accesses selects where the steps start. -/
theorem lookupChars_path (is : isName head = true)
    (notRoot : String.ofList head = "data" → scope.dataIsRoot = false)
    (accesses : Accesses text segments) :
    scope.lookupChars (solid (head ++ text)) =
      Path.follow (scope.named? (String.ofList head)) segments := by
  obtain ⟨ends, written⟩ := splitHead_accesses accesses
  have split : Path.splitHead (solid (head ++ text)) =
      (head, (Path.splitHead (solid text)).2) := by
    rw [solid_append, solid_name is, Path.splitHead_append (dotless_of_isName is), ends,
      List.append_nil]
  have trimmed : Text.trim (solid (head ++ text)) = solid (head ++ text) :=
    Text.trim_of_not_blank fun c member => not_blank_of_mem_solid member
  have filled : solid (head ++ text) ≠ [] := by
    rw [solid_append, solid_name is]
    simp [ne_nil_of_isName is]
  have elsewhere : ¬(head = ['d', 'a', 't', 'a'] ∧ scope.dataIsRoot = true) := by
    rintro ⟨rfl, root⟩
    rw [notRoot rfl] at root
    cases root
  rw [Scope.lookupChars_of_named (by rwa [trimmed]) (by rwa [trimmed, split]), trimmed, split,
    written]

/-- Where `data` is the root, it gives the root as a record by itself. -/
theorem lookupChars_root (root : scope.dataIsRoot = true) :
    scope.lookupChars "data".toList = some (.obj scope.merged) := by
  have trimmed : Text.trim "data".toList = "data".toList := by decide
  have split : Path.splitHead "data".toList = (['d', 'a', 't', 'a'], []) := by decide
  rw [Scope.lookupChars_of_root root (by rw [trimmed, split]), trimmed, split, if_pos rfl]

/-- Where `data` is the root, a path behind it is a path of its own. -/
theorem lookupChars_behind_root (root : scope.dataIsRoot = true) (some : solid cs ≠ []) :
    scope.lookupChars ("data".toList ++ '.' :: solid cs) = scope.lookupChars (solid cs) := by
  have trimmed : Text.trim ("data".toList ++ '.' :: solid cs) = "data".toList ++ '.' :: solid cs := by
    apply Text.trim_of_not_blank
    have each : ∀ c ∈ "data".toList ++ ['.'], Text.isBlank c = false :=
      Text.forall_of_all (by decide)
    have parts := List.append_assoc "data".toList ['.'] (solid cs)
    intro c member
    exact (List.mem_append.1 (parts ▸ member)).elim (each c) not_blank_of_mem_solid
  have split : Path.splitHead ("data".toList ++ '.' :: solid cs) =
      (['d', 'a', 't', 'a'], solid cs) := by
    rw [Path.splitHead_append (Text.forall_of_all (by decide))]
    rfl
  rw [Scope.lookupChars_of_root root (by rw [trimmed, split]), trimmed, split, if_neg some]

theorem lookupChars_field {lead trail : List Char} (root : scope.dataIsRoot = true)
    (blankLead : Blank lead) (blankTrail : Blank trail) (is : isName name = true)
    (other : String.ofList name ≠ "data") (accesses : Accesses text segments) :
    scope.lookupChars (solid ("data".toList ++ (lead ++ '.' :: (trail ++ (name ++ text))))) =
      Path.follow (scope.named? (String.ofList name)) segments := by
  have parts : solid ("data".toList ++ (lead ++ '.' :: (trail ++ (name ++ text)))) =
      "data".toList ++ '.' :: solid (name ++ text) := by
    rw [solid_append, solid_point blankLead, solid_append (trail), solid_of_blank blankTrail]
    rfl
  have filled : solid (name ++ text) ≠ [] := by
    rw [solid_append, solid_name is]
    simp [ne_nil_of_isName is]
  rw [parts, lookupChars_behind_root root filled,
    lookupChars_path is (fun same => absurd same other) accesses]

/-! ## What is read as a literal or a path -/

/-- A text that is no word is a quoted text, a numeral or no literal. -/
theorem readLiteral_of_no_word (other : ∀ word ∈ literalWords, cs ≠ word.toList) :
    Expr.readLiteral cs = (((Expr.readQuoted cs).map Json.str).or (Expr.readNumber cs)).map some := by
  have notTrue : cs ≠ ['t', 'r', 'u', 'e'] := other "true" (by decide)
  have notFalse : cs ≠ ['f', 'a', 'l', 's', 'e'] := other "false" (by decide)
  have notNull : cs ≠ ['n', 'u', 'l', 'l'] := other "null" (by decide)
  have notUndefined : cs ≠ ['u', 'n', 'd', 'e', 'f', 'i', 'n', 'e', 'd'] :=
    other "undefined" (by decide)
  rw [Expr.readLiteral, if_neg notTrue, if_neg notFalse, if_neg notNull, if_neg notUndefined]
  cases Expr.readQuoted cs with
  | none => rfl
  | some s => rfl

theorem ne_word_of_head (other : c ∉ ['t', 'f', 'n', 'u']) :
    ∀ word ∈ literalWords, c :: cs ≠ word.toList := by
  have heads : ∀ word ∈ literalWords,
      (word.toList.head?.any (decide <| · ∈ ['t', 'f', 'n', 'u'])) = true := by decide
  intro word listed same
  obtain ⟨d, first, member⟩ := (Option.any_eq_true _ _).1 (heads word listed)
  rw [← same] at first
  cases first
  exact other (of_decide_eq_true member)

theorem readQuoted_of_head (other : c ∉ ['"', '\'']) : Expr.readQuoted (c :: cs) = none := by
  have noQuote : ¬(c = '"' ∨ c = '\'') := by simpa using other
  rw [Expr.readQuoted]
  split
  · rw [if_neg fun all => noQuote all.1]
  · rfl

theorem leaf?_of_readLiteral {v : Value} {e : Expr} (read : Expr.readLiteral cs = some v)
    (leaf : Expr.leaf? cs = some e) : e = .literal v := by
  rw [Expr.leaf?, read] at leaf
  exact (Option.some.inj leaf).symm

/-- What stands between quotes has no bare quote in it. -/
theorem hasBareQuote_of_sharesText {mark : Char} {body : List Char}
    (shares : sharesText mark body = true) : Expr.hasBareQuote mark body = false := by
  fun_induction sharesText mark body with
  | case1 => rfl
  | case2 c cs ih =>
      rw [Bool.and_eq_true] at shares
      exact ih shares.2
  | case3 c cs plain ih =>
      simp only [Bool.and_eq_true, bne_iff_ne] at shares
      rw [Expr.hasBareQuote]
      · simp [shares, ih]
      · exact fun _ _ same => absurd same shares.1.2

theorem readLiteral_quoted {mark : Char} {body : List Char} (quote : mark ∈ ['"', '\''])
    (noQuote : Expr.hasBareQuote mark body = false) :
    Expr.readLiteral (mark :: (body ++ [mark])) =
      some (some (.str (String.ofList (Expr.unescape body)))) := by
  have marks : ∀ c ∈ ['"', '\''], (c = '"' ∨ c = '\'') ∧ c ∉ ['t', 'f', 'n', 'u'] :=
    Text.forall_of_all (by decide)
  obtain ⟨either, other⟩ := marks mark quote
  have quoted : Expr.readQuoted (mark :: (body ++ [mark])) =
      some (String.ofList (Expr.unescape body)) := by
    simp [Expr.readQuoted, either, noQuote]
  rw [readLiteral_of_no_word (ne_word_of_head other), quoted]
  rfl

/-- A numeral starts with a digit or a point. -/
theorem exists_head_of_readUnsigned {d : Decimal} (read : Decimal.readUnsigned cs = some d) :
    ∃ c rest, cs = c :: rest ∧ c ∈ '.' :: Text.digits := by
  have starts := startsNumeral_of_readUnsigned read []
  rw [List.append_nil] at starts
  cases cs with
  | nil => cases starts
  | cons c rest => exact ⟨c, rest, rfl, List.mem_cons.2 (starts.symm.imp_left And.left)⟩

theorem readNumber_of_head (noSign : c ≠ '-') (noDigit : c ∉ '.' :: Text.digits) :
    Expr.readNumber (c :: cs) = none := by
  rw [Expr.readNumber]
  · cases read : Decimal.readUnsigned (c :: cs) with
    | none => rfl
    | some d =>
        obtain ⟨_, _, same, digit⟩ := exists_head_of_readUnsigned read
        cases same
        exact absurd digit noDigit
  · exact fun _ same => noSign (List.cons.inj same).1

theorem readLiteral_numeral {d : Decimal} (read : Decimal.readUnsigned cs = some d) :
    Expr.readLiteral cs = some (some (Value.ofFloat d.toFloat)) := by
  obtain ⟨c, rest, rfl, listed⟩ := exists_head_of_readUnsigned read
  have each : ∀ c ∈ '.' :: Text.digits,
      c ∉ ['t', 'f', 'n', 'u'] ∧ c ∉ ['"', '\''] ∧ c ≠ '-' := Text.forall_of_all (by decide)
  obtain ⟨noWord, noQuote, noSign⟩ := each c listed
  have number : Expr.readNumber (c :: rest) = some (Value.ofFloat d.toFloat) := by
    rw [Expr.readNumber, read]
    · rfl
    · exact fun _ same => noSign (List.cons.inj same).1
  rw [readLiteral_of_no_word (ne_word_of_head noWord), readQuoted_of_head noQuote, number]
  rfl

theorem readLiteral_negative {d : Decimal} (read : Decimal.readUnsigned cs = some d) :
    Expr.readLiteral ('-' :: cs) = some (some (Value.ofFloat (-d.toFloat))) := by
  have number : Expr.readNumber ('-' :: cs) = some (Value.ofFloat (-d.toFloat)) := by
    rw [Expr.readNumber, read]
    rfl
  rw [readLiteral_of_no_word (ne_word_of_head (by decide)), readQuoted_of_head (by decide), number]
  rfl

theorem endsName_of_head (other : c ≠ '\\' ∧ Text.isIdentifierPart c = false) :
    endsName (c :: cs) = true := by
  simp [endsName, other]

theorem endsName_of_blank (blank : Text.isBlank c = true) : endsName (c :: cs) = true := by
  have listed := Text.mem_blanks blank
  have each : ∀ c ∈ Text.blanks, c ≠ '\\' := Text.forall_of_all (by decide)
  exact endsName_of_head ⟨each c listed, Text.isIdentifierPart_of_mem_blanks listed⟩

/-- What stands behind a name in a path is no part of the name. -/
theorem endsName_accesses (accesses : Accesses text segments) (ends : endsName rest = true) :
    endsName (text ++ rest) = true := by
  cases accesses with
  | nil => exact ends
  | @point lead _ _ _ _ blank =>
      cases lead with
      | nil => exact endsName_of_head (by decide)
      | cons c lead => exact endsName_of_blank (blank c (List.mem_cons_self ..))
  | index | key => exact endsName_of_head (by decide)

/-- A path starts with its first name, and that ends where the accesses start. -/
theorem takeWhile_path (is : isName head = true) (accesses : Accesses text segments) :
    (head ++ text).takeWhile Text.isIdentifierPart = head := by
  have nothing : endsName [] = true := rfl
  have ends := endsName_accesses accesses nothing
  rw [List.append_nil] at ends
  rw [List.takeWhile_append_of_pos (parts_of_isName is)]
  have none : text.takeWhile Text.isIdentifierPart = [] := by
    cases text with
    | nil => rfl
    | cons c text =>
        have other : Text.isIdentifierPart c = false := by
          simp only [endsName, List.head?_cons, Option.any_some, Bool.not_eq_true',
            Bool.or_eq_false_iff] at ends
          exact ends.2
        rw [List.takeWhile_cons_of_neg (by simp [other])]
  rw [none, List.append_nil]

/-- A text that starts like a name is a word or no literal. -/
theorem readLiteral_of_isPlainStart (start : Text.isPlainStart c = true)
    (noWord : ∀ word ∈ literalWords, c :: cs ≠ word.toList) : Expr.readLiteral (c :: cs) = none := by
  obtain ⟨-, -, digit, signs⟩ := apart_of_isPlainStart start
  simp only [List.mem_cons, List.not_mem_nil, or_false, not_or] at signs
  obtain ⟨double, single, -, point, -, -, noSign, -⟩ := signs
  have noQuote : c ∉ ['"', '\''] := by simp [double, single]
  have noDigit : c ∉ '.' :: Text.digits := by simp [point, digit]
  rw [readLiteral_of_no_word noWord, readQuoted_of_head noQuote, readNumber_of_head noSign noDigit]
  rfl

/-- A path is no literal. -/
theorem readLiteral_path (is : isName head = true) (plain : String.ofList head ∉ ownWords)
    (accesses : Accesses text segments) : Expr.readLiteral (head ++ text) = none := by
  have noWord : ∀ word ∈ literalWords, head ++ text ≠ word.toList := by
    intro word listed same
    have each : ∀ word ∈ literalWords, word.toList.takeWhile Text.isIdentifierPart = word.toList ∧
        word ∈ ownWords := by decide
    obtain ⟨whole, own⟩ := each word listed
    have parts := takeWhile_path is accesses
    rw [same, whole] at parts
    rw [← parts, String.ofList_toList] at plain
    exact plain own
  cases head with
  | nil => cases is
  | cons c head =>
      rw [isName, Bool.and_eq_true] at is
      exact readLiteral_of_isPlainStart is.1 noWord

theorem leaf?_path {e : Expr} (is : isName head = true) (plain : String.ofList head ∉ ownWords)
    (accesses : Accesses text segments) (leaf : Expr.leaf? (head ++ text) = some e) :
    e = .path (String.ofList (solid (head ++ text))) := by
  rw [Expr.leaf?, readLiteral_path is plain accesses] at leaf
  simp only at leaf
  split at leaf
  · exact (Option.some.inj leaf).symm
  · cases leaf

end UiDoc.Script
