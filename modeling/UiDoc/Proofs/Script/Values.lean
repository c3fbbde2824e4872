import UiDoc.Proofs.Script.Common
import UiDoc.Proofs.Script.Meaning
import UiDoc.Proofs.Script.Parsing

/-!
# Reading literals and paths

A script reads what it has in common with expressions as a value without operators: a literal, or a
name with accesses behind it.  The accesses take the same steps as the segments of a path.
-/

namespace UiDoc.Script.Parser

open Reader

variable {scope : Scope} {cs text rest lead trail head : List Char} {segments : List String}
  {cursor : Cursor} {ctx : Context} {fuel : Nat} {target : Tree} {P Q : Tree → Prop} {v k : Value}

theorem opensOperand_of_opensValue {token : Token} (opens : opensValue token = true) :
    opensOperand token = true := by
  cases token
  all_goals simp_all [opensValue, opensOperand]

/-- A text is an operand if it is read as a value, and no parameters of a function start there. -/
theorem readsOperand_of_value (head : ∃ c tail, cs = c :: tail ∧ c ∉ ['=', '<', '>'])
    (opens : ∀ {rest} {cursor : Cursor}, GoesOn followers rest → cursor.At (cs ++ rest) →
      opensValue cursor.token = true ∧ StartsPlain cursor)
    (reads : ∀ fuel {rest}, GoesOn followers rest → Reads (accessed fuel top) cs rest P) :
    ReadsOperand cs P where
  head := head
  opens := fun goesOn stands => opensOperand_of_opensValue (opens goesOn stands).1
  starts := fun goesOn stands => .inl (opens goesOn stands).2
  unary := fun _ _ goesOn cursor stands => unary_gives (opens goesOn stands).1 fun fuel =>
    (reads fuel goesOn cursor stands).mono fun _ next read => ⟨goesOn.token next read.1, read⟩

/-- The literal that a token is. -/
def literal? : Token → Option Tree
  | .number x => some (.number x)
  | .text s => some (.text s)
  | .name "true" false => some (.truth true)
  | .name "false" false => some (.truth false)
  | .name "null" false => some .null
  | _ => none

theorem primary_literal {tree : Tree} (literal : literal? cursor.token = some tree) :
    (primary fuel ctx).Gives cursor fun read next => next.At cursor.rest ∧ read = tree := by
  cases fuel with
  | zero => exact gives_failure _
  | succ fuel =>
      rw [primary]
      apply gives_cursor
      unfold literal? at literal
      split at literal
      case h_6 => cases literal
      all_goals
        rename_i token
        cases literal
        rw [token]
        exact gives_skip fun next stands => gives_pure ⟨stands, rfl⟩

theorem primary_unreadable (token : cursor.token = .unreadable) (post : Tree → Cursor → Prop) :
    (primary fuel ctx).Gives cursor post := by
  cases fuel with
  | zero => exact gives_failure _
  | succ fuel =>
      rw [primary]
      apply gives_cursor
      rw [token]
      exact gives_failure _

/-- A function whose body runs later starts with two names. -/
theorem startsDeferred_gives {word : String} :
    (startsDeferred word).Gives cursor fun found next => next = cursor ∧
      (found = true → ∃ behind ∈ cursor.next?, ∃ n escaped, behind.token = .name n escaped) := by
  rw [startsDeferred]
  apply gives_second
  split
  case h_1 behind next =>
    refine gives_pure ⟨rfl, fun found => ⟨behind, next, ?_⟩⟩
    have isWord := (Bool.and_eq_true_iff.1 found).1
    unfold Cursor.atWord at isWord
    split at isWord
    · exact ⟨_, _, ‹_›⟩
    · cases isWord
  case h_2 => exact gives_pure ⟨rfl, nofun⟩

theorem name_gives {n : String} (token : cursor.token = .name n false) :
    (name ctx).Gives cursor fun read next => read = n ∧ next.At cursor.rest := by
  rw [name]
  apply gives_cursor
  rw [token]
  simp only
  split
  · exact gives_skip fun next stands => gives_pure ⟨rfl, stands⟩
  · exact gives_failure _

/-- A name that is no reserved word is read as a name. -/
theorem primary_name {n : String} (token : cursor.token = .name n false)
    (plain : n ∉ reservedWords)
    (noFunction : n = "async" → ∀ next ∈ cursor.next?, ∀ word escaped,
      next.token ≠ .name word escaped) :
    (primary fuel ctx).Gives cursor fun tree next => next.At cursor.rest ∧ tree = .name n := by
  have named : (do let read ← name ctx; return Tree.name read).Gives cursor
      fun tree next => next.At cursor.rest ∧ tree = Tree.name n :=
    (name_gives token).bind fun read next same => gives_pure ⟨same.2, congrArg Tree.name same.1⟩
  cases fuel with
  | zero => exact gives_failure _
  | succ fuel =>
      rw [primary]
      apply gives_cursor
      rw [token]
      split
      case h_19 same =>
        cases same
        refine startsDeferred_gives.bind fun found next same => ?_
        obtain ⟨rfl, names⟩ := same
        have plainly : (decide (n = "async") && !false && found) = false := by
          rw [Bool.eq_false_iff]
          intro both
          simp only [Bool.not_false, Bool.and_true, Bool.and_eq_true, decide_eq_true_eq] at both
          obtain ⟨behind, next, word, escaped, token⟩ := names both.2
          exact noFunction both.1 behind next word escaped token
        rw [plainly, if_neg Bool.false_ne_true]
        exact named
      all_goals
        rename_i same
        cases same
      all_goals exact absurd (by decide) plain

/-! ## Literals -/

theorem opensValue_of_literal? {token : Token} {tree : Tree} (literal : literal? token = some tree) :
    opensValue token = true ∧ token ≠ .sign "(" ∧ ∀ escaped, token ≠ .name "async" escaped := by
  unfold literal? at literal
  split at literal
  case h_6 => cases literal
  all_goals exact ⟨rfl, nofun, nofun⟩

/-- Nothing that is read as a literal starts the parameters of a function. -/
theorem startsPlain_of_no_async (noGroup : cursor.token ≠ .sign "(")
    (noAsync : ∀ escaped, cursor.token ≠ .name "async" escaped) : StartsPlain cursor := by
  refine ⟨noGroup, fun async => ?_⟩
  unfold Cursor.atWord at async
  split at async
  next at_ =>
    rw [beq_iff_eq.1 async] at at_
    exact absurd at_ (noAsync _)
  next => cases async

/-- A text is an operand if its token is a literal or cannot be read. -/
theorem readsOperand_of_literal (tree : Tree)
    (head : ∃ c tail, cs = c :: tail ∧ c ∉ ['=', '<', '>'])
    (shows : ∀ {rest} {cursor : Cursor}, GoesOn followers rest → cursor.At (cs ++ rest) →
      cursor.token = .unreadable ∨ literal? cursor.token = some tree ∧ cursor.rest = rest)
    (has : P tree) : ReadsOperand cs P := by
  refine readsOperand_of_value head (fun goesOn stands => ?_) fun fuel rest goesOn cursor stands =>
    accessed_of_primary goesOn (fun fuel => ?_) fuel
  · rcases shows goesOn stands with token | ⟨literal, -⟩
    · rw [token]
      exact ⟨rfl, startsPlain_of_no_async (by simp [token]) (by simp [token])⟩
    · obtain ⟨opens, noGroup, noAsync⟩ := opensValue_of_literal? literal
      exact ⟨opens, startsPlain_of_no_async noGroup noAsync⟩
  · rcases shows goesOn stands with token | ⟨literal, behind⟩
    · exact primary_unreadable token _
    · refine (primary_literal literal).mono fun read next same => ?_
      rw [behind] at same
      rw [same.2]
      exact ⟨same.1, has⟩

/-- Nothing that may stand behind an operand continues a name. -/
theorem endsName_of_goesOn (goesOn : GoesOn followers rest) : endsName rest = true := by
  cases rest with
  | nil => rfl
  | cons c rest =>
      have stop := goesOn.head c rfl
      have each : ∀ c ∈ stops, c ≠ '\\' := Text.forall_of_all (by decide)
      exact endsName_of_head ⟨each c stop, isIdentifierPart_of_stops stop⟩

theorem head_of_isName (is : isName head = true) (text : List Char) :
    ∃ c tail, head ++ text = c :: tail ∧ c ∉ ['=', '<', '>'] := by
  cases head with
  | nil => cases is
  | cons c cs =>
      rw [isName, Bool.and_eq_true] at is
      obtain ⟨-, -, -, signs⟩ := apart_of_isPlainStart is.1
      exact ⟨c, cs ++ text, rfl, fun sign => signs (List.mem_of_mem_drop (i := 7) sign)⟩

/-- The words for truth values and for nothing are read as what they stand for. -/
theorem readsOperand_word (tree : Tree) (is : isName cs = true)
    (literal : literal? (.name (String.ofList cs) false) = some tree) (has : P tree) :
    ReadsOperand cs P := by
  refine readsOperand_of_literal tree ?_ (fun goesOn stands => ?_) has
  · have first := head_of_isName is []
    rwa [List.append_nil] at first
  · obtain ⟨token, behind⟩ := starts_name is (endsName_of_goesOn goesOn) _ stands
    rw [token]
    exact .inr ⟨literal, behind⟩

theorem readsOperand_quoted (scope : Scope) {mark : Char} {body : List Char}
    (quote : mark ∈ ['"', '\''])
    (shares : sharesText mark body = true) :
    ReadsOperand (mark :: (body ++ [mark]))
      (Means scope · (some (.str (String.ofList (Expr.unescape body))))) := by
  have each : ∀ c ∈ ['"', '\''], c ∉ ['=', '<', '>'] := Text.forall_of_all (by decide)
  refine readsOperand_of_literal (.text (String.ofList (Expr.unescape body)))
    ⟨mark, _, rfl, each mark quote⟩ (fun {rest cursor} _ stands => ?_) (means_literal rfl)
  rw [List.cons_append, List.append_assoc] at stands
  rcases at_quoted quote shares stands with token | ⟨token, behind⟩
  · exact .inl token
  · exact .inr ⟨by rw [token]; rfl, behind⟩

theorem readsOperand_numeral (scope : Scope) {d : Decimal} (read : Decimal.readUnsigned cs = some d)
    (shares : sharesNumeral cs = true) :
    ReadsOperand cs (Means scope · (some (Value.ofFloat d.toFloat))) := by
  refine readsOperand_of_literal (.number d.toFloat) ?_ (fun goesOn stands => ?_)
    (means_literal rfl)
  · obtain ⟨c, tail, same, listed⟩ := exists_head_of_readUnsigned read
    have each : ∀ c ∈ '.' :: Text.digits, c ∉ ['=', '<', '>'] := Text.forall_of_all (by decide)
    exact ⟨c, tail, same, each c listed⟩
  · obtain ⟨token, behind⟩ := starts_numeral shares read goesOn.head _ stands
    exact .inr ⟨by rw [token]; rfl, behind⟩

/-- A minus sign is an operator of a script, and takes the number back from its value. -/
theorem readsOperand_negative {d : Decimal} (read : Decimal.readUnsigned cs = some d)
    (shares : sharesNumeral cs = true)
    (kept : Value.jsonToFloat (Value.ofFloat d.toFloat) = d.toFloat) :
    ReadsOperand ('-' :: cs) (Means scope · (some (Value.ofFloat (-d.toFloat)))) := by
  have numeral := readsOperand_numeral scope read shares
  refine numeral.prefixed (by decide) rfl (fun rest => ?_) fun tree has => ?_
  · apply starts_minus
    obtain ⟨c, tail, rfl, listed⟩ := exists_head_of_readUnsigned read
    have each : ∀ c ∈ '.' :: Text.digits, c ∉ ['-', '='] := Text.forall_of_all (by decide)
    intro d first
    cases first
    exact each c listed
  · have means := means_unary .negate has
    rwa [UnaryOp.apply, computed, Value.toFloat, kept] at means

/-! ## Accesses -/

/-- The text is read as an expression as well if commas may stand in it. -/
theorem expression_reads (expression : ReadsExpression cs P) (closes : GoesOn closers rest)
    (fuel : Nat) : Reads (Parser.expression fuel top) cs rest P := by
  intro cursor stands
  cases fuel with
  | zero => exact gives_failure _
  | succ fuel =>
      rw [Parser.expression]
      refine (expression.assignment fuel closes cursor stands).bind fun tree next read => ?_
      have all : ∀ token ∈ closers, token ≠ .sign "," := by decide
      have noComma : next.atSign "," = false := by
        simpa [Cursor.atSign] using all next.token (closes.token next read.1)
      refine gives_accept_of_not_atSign noComma ?_
      exact gives_pure read

/-- Between brackets stands an operand, whose value is the name of the step. -/
theorem access_index (key : ReadsOperand cs (Means scope · k)) (blankLead : Blank lead)
    (blankTrail : Blank trail) (means : Means scope target v)
    (continues : ∀ fuel tree, Means scope tree (v.bind (Path.step · (Value.text k))) →
      Reads (access fuel top true tree) text rest Q) (fuel : Nat) :
    Reads (access fuel top true target) ('[' :: (lead ++ (cs ++ (trail ++ ']' :: text)))) rest Q := by
  intro cursor stands
  have parts : '[' :: (lead ++ (cs ++ (trail ++ ']' :: text))) ++ rest =
      '[' :: (lead ++ (cs ++ trail) ++ ']' :: (text ++ rest)) := by
    simp only [List.cons_append, List.append_assoc]
  rw [parts] at stands
  obtain ⟨token, behind⟩ := starts_bracket '[' (by decide) cursor stands
  cases fuel with
  | zero => exact gives_failure _
  | succ fuel =>
      have inside : top.inside = top := rfl
      rw [access]
      apply gives_cursor
      rw [token, inside]
      apply gives_skip
      intro next standsNext
      rw [behind] at standsNext
      have closes : GoesOn closers (']' :: (text ++ rest)) := goesOn_bracket (by decide)
      refine (expression_reads (key.padded blankLead blankTrail).expression closes fuel next
        standsNext).bind fun place last read => ?_
      obtain ⟨-, ends⟩ := starts_bracket ']' (by decide) last read.1
      apply gives_expect
      intro after standsAfter
      rw [ends] at standsAfter
      exact continues fuel _ (means_index means read.2) after standsAfter

/-- A point in front of a name is an access. -/
theorem starts_access {name : List Char} (is : isName name = true) (blankLead : Blank lead)
    (blankTrail : Blank trail) :
    Starts (lead ++ '.' :: (trail ++ (name ++ text)) ++ rest) (.sign ".")
      (trail ++ (name ++ (text ++ rest))) := by
  have parts : lead ++ '.' :: (trail ++ (name ++ text)) ++ rest =
      lead ++ '.' :: (trail ++ (name ++ (text ++ rest))) := by
    simp only [List.cons_append, List.append_assoc]
  rw [parts]
  refine starts_blanks blankLead (starts_point ?_)
  cases trail with
  | cons c trail =>
      intro d first
      cases first
      have each : ∀ c ∈ Text.blanks, c ≠ '.' ∧ isDigitIn 10 c = false :=
        Text.forall_of_all (by decide)
      exact each c (Text.mem_blanks (blankTrail c (List.mem_cons_self ..)))
  | nil =>
      cases name with
      | nil => cases is
      | cons c name =>
          intro d first
          cases first
          rw [isName, Bool.and_eq_true] at is
          obtain ⟨-, digit, -, signs⟩ := apart_of_isPlainStart is.1
          exact ⟨fun point => signs (by simp [point]), digit⟩

/-- Behind a point stands a name. -/
theorem access_point {name : List Char} (is : isName name = true)
    (ends : endsName (text ++ rest) = true) (blankLead : Blank lead) (blankTrail : Blank trail)
    (means : Means scope target v)
    (continues : ∀ fuel tree, Means scope tree (v.bind (Path.step · (String.ofList name))) →
      Reads (access fuel top true tree) text rest Q) (fuel : Nat) :
    Reads (access fuel top true target) (lead ++ '.' :: (trail ++ (name ++ text))) rest Q := by
  intro cursor stands
  obtain ⟨token, behind⟩ := starts_access is blankLead blankTrail cursor stands
  cases fuel with
  | zero => exact gives_failure _
  | succ fuel =>
      rw [access]
      apply gives_cursor
      rw [token]
      apply gives_skip
      intro next standsNext
      rw [behind] at standsNext
      obtain ⟨named, last⟩ := starts_blanks blankTrail (starts_name is ends) next standsNext
      apply gives_cursor
      rw [named]
      apply gives_skip
      intro after standsAfter
      rw [last] at standsAfter
      exact continues fuel _ (means_member _ means) after standsAfter

/-- What stands between quotes in a key stands for itself. -/
theorem unescape_of_isKey {mark : Char} {key : List Char} (is : isKey mark key = true) :
    sharesText mark key = true ∧ Expr.unescape key = key := by
  induction key with
  | nil => exact ⟨rfl, rfl⟩
  | cons c key ih =>
      rw [isKey, List.all_cons, Bool.and_eq_true] at is
      obtain ⟨shares, same⟩ := ih is.2
      simp only [Bool.and_eq_true, bne_iff_ne] at is
      obtain ⟨⟨⟨other, slash⟩, -⟩, -⟩ := is
      constructor
      · rw [sharesText]
        · simp [other, slash, shares]
        · exact fun _ _ same => absurd same slash
      · rw [Expr.unescape, same]
        exact fun _ _ same => absurd same slash

/-- Accesses take the steps of their segments, one after the other. -/
theorem access_reads (accesses : Accesses text segments) (goesOn : GoesOn followers rest)
    (means : Means scope target v) (fuel : Nat) :
    Reads (access fuel top true target) text rest (Means scope · (Path.follow v segments)) := by
  induction accesses generalizing fuel target v with
  | nil =>
      intro cursor stands
      refine (access_gives (goesOn.token cursor stands)).mono fun tree next same => ?_
      rw [same.1, same.2]
      exact ⟨stands, means⟩
  | point blankLead blankTrail is accesses ih =>
      have ends := endsName_accesses accesses (endsName_of_goesOn goesOn)
      exact access_point is ends blankLead blankTrail means (fun fuel tree has => ih has fuel) fuel
  | index blankLead blankTrail is accesses ih =>
      simp only [isIndex, Bool.and_eq_true] at is
      obtain ⟨⟨-, shares⟩, written⟩ := is
      obtain ⟨d, read, own⟩ := (Option.any_eq_true _ _).1 written
      have key := readsOperand_numeral scope read shares
      refine access_index key blankLead blankTrail means (fun fuel tree has => ?_) fuel
      rw [beq_iff_eq.1 own] at has
      exact ih has fuel
  | @key mark lead trail key text segments quote blankLead blankTrail is accesses ih =>
      obtain ⟨shares, same⟩ := unescape_of_isKey is
      have operand := readsOperand_quoted scope quote shares
      rw [same] at operand
      have parts : mark :: (key ++ mark :: (trail ++ ']' :: text)) =
          mark :: (key ++ [mark]) ++ (trail ++ ']' :: text) := by simp
      rw [parts]
      exact access_index operand blankLead blankTrail means (fun fuel tree has => ih has fuel) fuel

/-! ## Paths -/

/-- What stands behind the first name of a path is neither a parenthesis nor another name. -/
theorem next_of_accesses (accesses : Accesses text segments) (goesOn : GoesOn followers rest)
    (stands : cursor.At (text ++ rest)) :
    cursor.token ∈ Token.sign "." :: .sign "[" :: followers := by
  cases accesses with
  | nil => exact List.mem_cons_of_mem _ (List.mem_cons_of_mem _ (goesOn.token cursor stands))
  | point blankLead blankTrail is =>
      obtain ⟨token, -⟩ := starts_access is blankLead blankTrail cursor stands
      rw [token]
      exact List.mem_cons_self ..
  | index | key =>
      obtain ⟨token, -⟩ := starts_bracket '[' (by decide) cursor stands
      rw [token]
      exact List.mem_cons_of_mem _ (List.mem_cons_self ..)

/-- A name with accesses behind it is an operand. -/
theorem readsOperand_path (is : isName head = true)
    (plain : String.ofList head ∉ reservedWords ++ ["await"])
    (means : Means scope (.name (String.ofList head)) v) (accesses : Accesses text segments) :
    ReadsOperand (head ++ text) (Means scope · (Path.follow v segments)) := by
  have named : ∀ {rest} {cursor : Cursor}, GoesOn followers rest →
      cursor.At (head ++ text ++ rest) →
      cursor.token = .name (String.ofList head) false ∧ cursor.rest = text ++ rest := by
    intro rest cursor goesOn stands
    rw [List.append_assoc] at stands
    exact starts_name is (endsName_accesses accesses (endsName_of_goesOn goesOn)) cursor stands
  have all : ∀ token ∈ Token.sign "." :: .sign "[" :: followers,
      token ≠ .sign "(" ∧ ∀ word escaped, token ≠ .name word escaped := by
    simp [followers, closers, infixes]
  have behind : ∀ {rest} {cursor : Cursor}, GoesOn followers rest →
      cursor.At (head ++ text ++ rest) →
      ∀ next ∈ cursor.next?, next.token ≠ .sign "(" ∧
        ∀ word escaped, next.token ≠ .name word escaped := by
    intro rest cursor goesOn stands next found
    have standsNext := Cursor.At.next found
    rw [(named goesOn stands).2] at standsNext
    exact all _ (next_of_accesses accesses goesOn standsNext)
  have operators : ∀ word ∈ ["typeof", "void", "delete", "await"],
      word ∈ reservedWords ++ ["await"] := by
    decide
  have noOperator : opensValue (.name (String.ofList head) false) = true := by
    simpa [opensValue] using fun word => plain (operators _ word)
  rw [List.mem_append, not_or] at plain
  refine readsOperand_of_value (head_of_isName is text) (fun goesOn stands => ?_)
    fun fuel rest goesOn cursor stands => ?_
  · have noGroup : Token.name (String.ofList head) false ≠ .sign "(" := Token.noConfusion
    rw [StartsPlain, (named goesOn stands).1]
    exact ⟨noOperator, noGroup, fun _ => behind goesOn stands⟩
  · cases fuel with
    | zero => exact gives_failure _
    | succ fuel =>
        obtain ⟨token, ends⟩ := named goesOn stands
        rw [accessed]
        refine (primary_name token plain.1 fun _ next found =>
          (behind goesOn stands next found).2).bind fun tree next read => ?_
        obtain ⟨standsNext, rfl⟩ := read
        rw [ends] at standsNext
        exact access_reads accesses goesOn means fuel next standsNext

end UiDoc.Script.Parser
