import UiDoc.Proofs.Script.Readers

/-!
# Reading operands and the operators behind them

What stands behind an operand decides how far it goes.  Behind an operand of either language stands
the end of the text, a closing bracket, or one of a few operators, none of which continues the
operand.
-/

namespace UiDoc.Script

variable {rest lead trail cs : List Char} {tokens : List Token} {cursor : Cursor}

/-! ## What stands behind an operand -/

/-- The tokens that may stand behind an expression. -/
def closers : List Token :=
  [.finish, .sign ")", .sign "]"]

/-- The tokens that may stand behind an operand. -/
def followers : List Token :=
  closers ++ infixes.map .sign

/-- A text goes on with one of the tokens, at once or behind white space. -/
structure GoesOn (tokens : List Token) (rest : List Char) : Prop where
  head : ∀ c ∈ rest.head?, c ∈ stops
  token : ∀ cursor : Cursor, cursor.At rest → cursor.token ∈ tokens

theorem GoesOn.of_closers (goesOn : GoesOn closers rest) : GoesOn followers rest where
  head := goesOn.head
  token := fun cursor stands => List.mem_append_left _ (goesOn.token cursor stands)

theorem GoesOn.blanks (goesOn : GoesOn tokens rest) (blank : ∀ c ∈ lead, Text.isBlank c) :
    GoesOn tokens (lead ++ rest) where
  head := by
    cases lead with
    | nil => exact goesOn.head
    | cons c lead =>
        intro d first
        cases first
        exact List.mem_append_left _ (Text.mem_blanks (blank c (List.mem_cons_self ..)))
  token := fun cursor stands => goesOn.token cursor ((Cursor.at_blanks blank).1 stands)

theorem goesOn_nil : GoesOn closers [] where
  head := nofun
  token := fun cursor stands => by
    rw [(starts_nil cursor stands).1]
    decide

theorem goesOn_bracket {bracket : Char} (listed : bracket ∈ [')', ']']) :
    GoesOn closers (bracket :: rest) where
  head := fun c first => by
    cases first
    have all : ∀ c ∈ [')', ']'], c ∈ stops := Text.forall_of_all (by decide)
    exact all bracket listed
  token := fun cursor stands => by
    have all : ∀ c ∈ [')', ']'],
        c ∈ ['(', ')', '[', ']'] ∧ Token.sign (String.singleton c) ∈ closers :=
      Text.forall_of_all (by decide)
    obtain ⟨member, closer⟩ := all bracket listed
    rwa [(starts_bracket bracket member cursor stands).1]

theorem goesOn_infix {s : String} (listed : s ∈ infixes)
    (apart : ∀ c ∈ cs.head?, c ∉ ['=', '<', '>']) : GoesOn followers (s.toList ++ cs) where
  head := fun c first => by
    have all : ∀ s ∈ infixes, (s.toList.head?.any (decide <| · ∈ stops)) = true := by decide
    obtain ⟨d, head, stop⟩ := (Option.any_eq_true _ _).1 (all s listed)
    rw [List.head?_append, head] at first
    cases first
    exact of_decide_eq_true stop
  token := fun cursor stands => by
    rw [(starts_operator (List.mem_cons_of_mem _ listed) apart cursor stands).1]
    exact List.mem_append_right _ (List.mem_map_of_mem listed)

/-! ## Where an operand ends -/

namespace Parser

open Reader

variable {ctx : Context} {target left : Tree} {fuel : Nat}

/-- The surroundings of a whole script. -/
def top : Context := { waits := true }

theorem gives_isOperatorWord {α : Type} {word : String} {f : Bool → Reader α}
    {post : α → Cursor → Prop} (gives : (f false).Gives cursor post) :
    (isOperatorWord word false >>= f).Gives cursor post := by
  rw [isOperatorWord, bind_assoc]
  apply gives_isAtWord
  split
  · rw [if_neg Bool.false_ne_true, bind_assoc]
    apply gives_second
    split
    · split
      · exact (gives_failure fun _ _ => False).bind fun _ _ no => no.elim
      · exact gives
    · exact gives
  · exact gives

theorem noPower_gives : noPower.Gives cursor fun _ next => next = cursor := by
  rw [noPower]
  apply gives_isAt
  split
  · exact gives_failure _
  · exact gives_pure rfl

/-- Nothing that may stand behind an operand is part of it. -/
theorem access_gives (follows : cursor.token ∈ followers) {calls : Bool} :
    (access fuel ctx calls target).Gives cursor fun tree next => tree = target ∧ next = cursor := by
  cases fuel with
  | zero => exact gives_failure _
  | succ fuel =>
      rw [access]
      apply gives_cursor
      split
      case h_1 at_ => rw [at_] at follows; exact absurd follows (by decide)
      case h_2 at_ => rw [at_] at follows; exact absurd follows (by decide)
      case h_3 at_ => rw [at_] at follows; exact absurd follows (by decide)
      case h_4 at_ => rw [at_] at follows; exact absurd follows (by decide)
      case h_5 at_ => rw [at_] at follows; simp [followers, closers] at follows
      case h_6 => exact gives_pure ⟨rfl, rfl⟩

theorem updated_gives (follows : cursor.token ∈ followers) :
    (updated target).Gives cursor fun tree next => tree = target ∧ next = cursor := by
  rw [updated]
  apply gives_cursor
  split
  case isTrue up =>
    have all : ∀ token ∈ followers, token ≠ .sign "++" ∧ token ≠ .sign "--" := by decide
    simp [Cursor.atSign, all cursor.token follows] at up
  case isFalse => exact gives_pure ⟨rfl, rfl⟩

/-- No operator that stands behind the operand belongs to it if it binds no more tightly than the
operator in front of the operand. -/
theorem infixedRest_gives {level : Nat}
    (closes : cursor.token ∈ closers ∨ cursor.token = .sign "||" ∧ level = 2) :
    (infixedRest fuel top level left).Gives cursor
      fun tree next => tree = left ∧ next = cursor := by
  cases fuel with
  | zero => exact gives_failure _
  | succ fuel =>
      rw [infixedRest]
      apply gives_cursor
      have membership : top.membership = true := rfl
      rw [membership]
      rcases closes with closer | ⟨token, rfl⟩
      · have all : ∀ token ∈ closers, Infix.ofToken true token = none := by decide
        rw [all cursor.token closer]
        simp only
        split
        · exact gives_failure _
        · exact gives_pure ⟨rfl, rfl⟩
      · have fallback : Infix.ofToken true (.sign "||") = some (.logical .or, 2) := by decide
        rw [token, fallback]
        exact gives_pure ⟨rfl, rfl⟩

/-- Behind an expression without commas stands no assignment, no choice and no arrow. -/
theorem assignmentRest_gives (closes : cursor.token ∈ closers) :
    (assignmentRest fuel ctx left).Gives cursor fun tree next => tree = left ∧ next = cursor := by
  cases fuel with
  | zero => exact gives_failure _
  | succ fuel =>
      rw [assignmentRest]
      apply gives_cursor
      split
      case h_1 at_ => rw [at_] at closes; exact absurd closes (by decide)
      case h_2 at_ => rw [at_] at closes; exact absurd closes (by decide)
      case h_3 at_ => rw [at_] at closes; exact absurd closes (by decide)
      case h_4 =>
        rename_i s _ _ _ at_
        have all : ∀ s ∈ compoundAssignments, Token.sign s ∉ closers := by decide
        split
        case isTrue compound =>
          rw [at_] at closes
          exact absurd closes (all s (List.contains_iff_mem.1 compound))
        case isFalse => exact gives_pure ⟨rfl, rfl⟩
      case h_5 => exact gives_pure ⟨rfl, rfl⟩

/-! ## How an operand starts -/

/-- Whether an operand of either language may start with the token. -/
def opensOperand : Token → Bool
  | .name _ _ | .number _ | .text _ | .unreadable => true
  | .sign s => ["!", "-", "("].contains s
  | _ => false

/-- The reader starts with an operand and goes on with the operators behind it. -/
theorem infixed_gives {middle : Tree → Cursor → Prop} {post : Tree → Cursor → Prop} {level : Nat}
    (opens : opensOperand cursor.token = true)
    (first : ∀ fuel, (unary fuel ctx).Gives cursor middle)
    (second : ∀ fuel tree next, middle tree next →
      (infixedRest fuel ctx level tree).Gives next post) :
    (infixed fuel ctx level).Gives cursor post := by
  cases fuel with
  | zero => exact gives_failure _
  | succ fuel =>
      rw [infixed]
      apply gives_cursor
      split
      case h_1 at_ =>
        rw [at_] at opens
        cases opens
      case h_2 => exact (first fuel).bind (second fuel)

/-- Whether a value that no operator stands in front of may start with the token. -/
def opensValue : Token → Bool
  | .name word _ => !(["typeof", "void", "delete", "await"].contains word)
  | .number _ | .text _ | .unreadable => true
  | .sign s => s = "("
  | _ => false

/-- What a value starts with is no operator in front of an operand. -/
theorem ofToken_of_opensValue {token : Token} (opens : opensValue token = true) :
    UnaryOp.ofToken token = none := by
  unfold UnaryOp.ofToken
  split
  case h_7 => rfl
  all_goals cases opens

/-- Without an operator in front of it, an operand is a value with accesses behind it. -/
theorem unary_gives {post : Tree → Cursor → Prop} (opens : opensValue cursor.token = true)
    (gives : ∀ fuel, (accessed fuel top).Gives cursor
      fun tree next => next.token ∈ followers ∧ post tree next) :
    (unary fuel top).Gives cursor post := by
  cases fuel with
  | zero => exact gives_failure _
  | succ fuel =>
      have removes : cursor.token ≠ .name "delete" false := fun same => by
        rw [same] at opens
        cases opens
      have counts : (cursor.atSign "++" || cursor.atSign "--") = false := by
        unfold Cursor.atSign
        cases token : cursor.token <;> simp_all [opensValue]
      have waits : cursor.atWord "await" = false := by
        unfold Cursor.atWord
        cases token : cursor.token <;> simp_all [opensValue]
      rw [unary]
      apply gives_cursor
      rw [ofToken_of_opensValue opens]
      simp only
      rw [if_neg removes, counts, if_neg Bool.false_ne_true, isOperatorWord, bind_assoc]
      apply gives_isAtWord
      rw [waits, if_neg Bool.false_ne_true, pure_bind, if_neg Bool.false_ne_true]
      refine (gives fuel).bind fun tree next holds => ?_
      refine (updated_gives holds.1).mono fun tree last same => ?_
      rw [same.1, same.2]
      exact holds.2

/-! ## Reading operands -/

/-- In front of a text and another one, the reader ends between the two, and the tree has the
property. -/
def Reads (reader : Reader Tree) (cs rest : List Char) (P : Tree → Prop) : Prop :=
  ∀ cursor : Cursor, cursor.At (cs ++ rest) →
    reader.Gives cursor fun tree next => next.At rest ∧ P tree

/-- No parameters of a function start here. -/
def StartsPlain (cursor : Cursor) : Prop :=
  cursor.token ≠ .sign "(" ∧
    (cursor.atWord "async" = true → ∀ next ∈ cursor.next?,
      next.token ≠ .sign "(" ∧ ∀ word escaped, next.token ≠ .name word escaped)

/-- Parentheses with an expression between them start here, and end in front of a text. -/
def StartsGroup (cursor : Cursor) (rest : List Char) (P : Tree → Prop) : Prop :=
  cursor.token = .sign "(" ∧ ∀ fuel (next : Cursor), next.At cursor.rest →
    (enclosed fuel top).Gives next fun inner last =>
      last.At rest ∧ ∃ tree, inner = ⟨[.item tree], false⟩ ∧ P (.paren tree)

/-- The text is an operand whose tree has the property. -/
structure ReadsOperand (cs : List Char) (P : Tree → Prop) : Prop where
  head : ∃ c tail, cs = c :: tail ∧ c ∉ ['=', '<', '>']
  opens : ∀ {rest} {cursor : Cursor}, GoesOn followers rest → cursor.At (cs ++ rest) →
    opensOperand cursor.token = true
  starts : ∀ {rest} {cursor : Cursor}, GoesOn followers rest → cursor.At (cs ++ rest) →
    StartsPlain cursor ∨ StartsGroup cursor rest P
  unary : ∀ fuel {rest}, GoesOn followers rest → Reads (unary fuel top) cs rest P

variable {P Q : Tree → Prop} {tail : List Char}

/-- No operator in front of an operand reaches into it. -/
theorem ReadsOperand.apart (operand : ReadsOperand cs P) :
    ∀ c ∈ (cs ++ rest).head?, c ∉ ['=', '<', '>'] := by
  obtain ⟨d, tail, rfl, apart⟩ := operand.head
  intro c first
  cases first
  exact apart

/-- Behind parentheses that are an operand stands no arrow. -/
theorem arrowHead_gives {inner : Enclosed} (follows : cursor.token ∈ followers) :
    (arrowHead inner).Gives cursor fun head next => head = none ∧ next = cursor := by
  have all : ∀ token ∈ followers, token ≠ .sign "=>" := by decide
  have noArrow : cursor.atSign "=>" = false := by
    simpa [Cursor.atSign] using all cursor.token follows
  rw [arrowHead]
  apply gives_cursor
  rw [noArrow, if_neg Bool.false_ne_true]
  exact gives_pure ⟨rfl, rfl⟩

/-- An expression that starts with the word `async` is no function unless a name or a parenthesis
follows. -/
theorem deferred_gives {post : Tree → Cursor → Prop} {fuel : Nat}
    (plain : ∀ next ∈ cursor.next?,
      next.token ≠ .sign "(" ∧ ∀ word escaped, next.token ≠ .name word escaped)
    (gives : ∀ fuel, (infixed fuel top 0 >>= assignmentRest fuel top).Gives cursor post) :
    (deferred fuel top).Gives cursor post := by
  cases fuel with
  | zero => exact gives_failure _
  | succ fuel =>
      rw [deferred]
      apply gives_second
      split
      case h_1 => exact gives_failure _
      case h_2 next behind =>
        obtain ⟨noGroup, noName⟩ := plain next behind
        have notAt : next.atSign "(" = false := by simpa [Cursor.atSign] using noGroup
        split
        · exact gives fuel
        · rw [notAt, if_neg Bool.false_ne_true]
          split
          · split
            · exact absurd ‹_› (noName _ _)
            · exact gives fuel
          · exact gives fuel

/-- What stands in parentheses at the start of an expression is its first operand. -/
theorem operandRest_gives {post : Tree → Cursor → Prop} (follows : cursor.token ∈ followers)
    (gives : ∀ fuel,
      (infixedRest fuel ctx 0 target >>= assignmentRest fuel ctx).Gives cursor post) :
    (operandRest fuel ctx target).Gives cursor post := by
  cases fuel with
  | zero => exact gives_failure _
  | succ fuel =>
      rw [operandRest]
      refine (access_gives follows).bind fun tree next same => ?_
      obtain ⟨rfl, rfl⟩ := same
      refine (updated_gives follows).bind fun tree next same => ?_
      obtain ⟨rfl, rfl⟩ := same
      exact gives fuel

/-- An expression starts with an operand, and goes on with operators. -/
theorem assignment_reads (operand : ReadsOperand cs P)
    (goesOn : GoesOn followers (tail ++ rest)) (closes : GoesOn closers rest)
    (remainder : ∀ fuel left, P left → Reads (infixedRest fuel top 0 left) tail rest Q)
    (fuel : Nat) : Reads (assignment fuel top) (cs ++ tail) rest Q := by
  intro cursor stands
  rw [List.append_assoc] at stands
  have finishes : ∀ fuel tree (next : Cursor), next.At rest ∧ Q tree →
      (assignmentRest fuel top tree).Gives next fun tree last => last.At rest ∧ Q tree := by
    intro fuel tree next reads
    refine (assignmentRest_gives (closes.token next reads.1)).mono fun tree last same => ?_
    rw [same.1, same.2]
    exact reads
  have plainly : ∀ fuel, (infixed fuel top 0 >>= assignmentRest fuel top).Gives cursor
      fun tree last => last.At rest ∧ Q tree := by
    intro fuel
    have first := fun fuel => operand.unary fuel goesOn cursor stands
    refine (infixed_gives (operand.opens goesOn stands) first ?_).bind (finishes fuel)
    exact fun fuel tree next reads => remainder fuel tree reads.2 next reads.1
  cases fuel with
  | zero => exact gives_failure _
  | succ fuel =>
      rw [assignment]
      apply gives_cursor
      apply gives_isOperatorWord
      rw [if_neg Bool.false_ne_true]
      rcases operand.starts goesOn stands with ⟨noGroup, plain⟩ | ⟨group, encloses⟩
      · have notAt : cursor.atSign "(" = false := by simpa [Cursor.atSign] using noGroup
        rw [notAt, if_neg Bool.false_ne_true]
        split
        case isTrue async => exact deferred_gives (plain async) plainly
        case isFalse => exact plainly fuel
      · have at_ : cursor.atSign "(" = true := by simp [Cursor.atSign, group]
        rw [at_, if_pos rfl]
        apply gives_skip
        intro next standsNext
        refine (encloses fuel next standsNext).bind fun inner last read => ?_
        obtain ⟨standsLast, tree, rfl, has⟩ := read
        have follows := goesOn.token last standsLast
        refine (arrowHead_gives follows).bind fun head last' same => ?_
        obtain ⟨rfl, rfl⟩ := same
        exact operandRest_gives follows fun fuel =>
          (remainder fuel _ has last' standsLast).bind (finishes fuel)

/-! ## Forms of operands -/

/-- White space around an operand is no part of it. -/
theorem ReadsOperand.padded (operand : ReadsOperand cs P) (blankLead : ∀ c ∈ lead, Text.isBlank c)
    (blankTrail : ∀ c ∈ trail, Text.isBlank c) : ReadsOperand (lead ++ (cs ++ trail)) P := by
  have inside : ∀ {rest} {cursor : Cursor}, cursor.At (lead ++ (cs ++ trail) ++ rest) →
      cursor.At (cs ++ (trail ++ rest)) := by
    intro rest cursor stands
    rw [List.append_assoc, List.append_assoc] at stands
    exact (Cursor.at_blanks blankLead).1 stands
  refine ⟨?_, fun goesOn stands => ?_, fun goesOn stands => ?_, fun fuel rest goesOn => ?_⟩
  · obtain ⟨c, tail, rfl, apart⟩ := operand.head
    cases lead with
    | nil => exact ⟨c, tail ++ trail, rfl, apart⟩
    | cons d lead =>
        have all : ∀ c ∈ Text.blanks, c ∉ ['=', '<', '>'] := Text.forall_of_all (by decide)
        exact ⟨d, _, rfl, all d (Text.mem_blanks (blankLead d (List.mem_cons_self ..)))⟩
  · exact operand.opens (goesOn.blanks blankTrail) (inside stands)
  · refine (operand.starts (goesOn.blanks blankTrail) (inside stands)).imp_right fun group => ?_
    refine ⟨group.1, fun fuel next standsNext => ?_⟩
    refine (group.2 fuel next standsNext).mono fun inner last read => ?_
    exact ⟨(Cursor.at_blanks blankTrail).1 read.1, read.2⟩
  · intro cursor stands
    refine (operand.unary fuel (goesOn.blanks blankTrail) cursor (inside stands)).mono ?_
    exact fun tree next read => ⟨(Cursor.at_blanks blankTrail).1 read.1, read.2⟩

/-- A sign in front of an operand makes another operand. -/
theorem ReadsOperand.prefixed {sign : Char} {op : UnaryOp} (operand : ReadsOperand cs P)
    (listed : sign ∈ ['!', '-'])
    (denotes : UnaryOp.ofToken (.sign (String.singleton sign)) = some op)
    (starts : ∀ rest, Starts (sign :: (cs ++ rest)) (.sign (String.singleton sign)) (cs ++ rest))
    (made : ∀ tree, P tree → Q (.unary op tree)) : ReadsOperand (sign :: cs) Q := by
  have all : ∀ sign ∈ ['!', '-'], sign ∉ ['=', '<', '>'] ∧
      opensOperand (.sign (String.singleton sign)) = true ∧
        Token.sign (String.singleton sign) ≠ .sign "(" := Text.forall_of_all (by decide)
  obtain ⟨apart, opens, noGroup⟩ := all sign listed
  refine ⟨⟨sign, cs, rfl, apart⟩, fun _ stands => ?_, fun _ stands => ?_,
    fun fuel rest goesOn cursor stands => ?_⟩
  · rw [(starts _ _ stands).1]
    exact opens
  · refine .inl ⟨?_, fun async => ?_⟩
    · rw [(starts _ _ stands).1]
      exact noGroup
    · rw [Cursor.atWord, (starts _ _ stands).1] at async
      cases async
  · obtain ⟨token, behind⟩ := starts _ _ stands
    cases fuel with
    | zero => exact gives_failure _
    | succ fuel =>
        rw [Parser.unary]
        apply gives_cursor
        rw [token, denotes]
        apply gives_skip
        intro next standsNext
        rw [behind] at standsNext
        refine (operand.unary fuel goesOn next standsNext).bind fun tree last read => ?_
        refine noPower_gives.bind fun _ after same => ?_
        rw [same]
        exact gives_pure ⟨read.1, made tree read.2⟩

theorem ReadsOperand.not (operand : ReadsOperand cs P)
    (negated : ∀ tree, P tree → Q (.unary .not tree)) : ReadsOperand ('!' :: cs) Q :=
  operand.prefixed (by decide) rfl
    (fun _ => starts_operator (s := "!") (List.mem_cons_self ..) operand.apart) negated

/-- Parentheses end behind the expression in them. -/
theorem enclosed_gives (opens : opensOperand cursor.token = true)
    (stands : cursor.At (cs ++ ')' :: rest))
    (inner : ∀ fuel, Reads (assignment fuel top) cs (')' :: rest) P) :
    (enclosed fuel top).Gives cursor fun inner last =>
      last.At rest ∧ ∃ tree, inner = ⟨[.item tree], false⟩ ∧ P tree := by
  cases fuel with
  | zero => exact gives_failure _
  | succ fuel =>
      have signs : ∀ s ∈ [")", "..."], cursor.atSign s = false := by
        intro s listed
        have all : ∀ s ∈ [")", "..."], opensOperand (.sign s) = false := by decide
        have other : cursor.token ≠ .sign s := fun same => by
          rw [same, all s listed] at opens
          cases opens
        simpa [Cursor.atSign] using other
      rw [enclosed]
      refine gives_accept_of_not_atSign (signs ")" (by decide)) ?_
      rw [if_neg Bool.false_ne_true]
      refine gives_accept_of_not_atSign (signs "..." (by decide)) ?_
      refine (inner fuel cursor stands).bind fun tree next read => ?_
      obtain ⟨token, behind⟩ := starts_bracket ')' (by decide) next read.1
      have noComma : next.atSign "," = false := by
        rw [Cursor.atSign, token]
        decide
      refine gives_accept_of_not_atSign noComma ?_
      rw [if_neg Bool.false_ne_true]
      apply gives_expect
      intro last standsLast
      rw [behind] at standsLast
      exact gives_pure ⟨standsLast, tree, rfl, read.2⟩

/-- Behind a value without accesses stands nothing that continues it. -/
theorem accessed_of_primary (goesOn : GoesOn followers rest)
    (gives : ∀ fuel, (primary fuel top).Gives cursor fun tree next => next.At rest ∧ P tree)
    (fuel : Nat) : (accessed fuel top).Gives cursor fun tree next => next.At rest ∧ P tree := by
  cases fuel with
  | zero => exact gives_failure _
  | succ fuel =>
      rw [accessed]
      refine (gives fuel).bind fun tree next read => ?_
      refine (access_gives (goesOn.token next read.1)).mono fun tree last same => ?_
      rw [same.1, same.2]
      exact read

/-- The text is an expression whose tree has the property. -/
structure ReadsExpression (cs : List Char) (P : Tree → Prop) : Prop where
  opens : ∀ {rest} {cursor : Cursor}, GoesOn closers rest → cursor.At (cs ++ rest) →
    opensOperand cursor.token = true
  assignment : ∀ fuel {rest}, GoesOn closers rest → Reads (assignment fuel top) cs rest P

/-- Parentheses make an operand of an expression. -/
theorem ReadsExpression.paren (expression : ReadsExpression cs P)
    (grouped : ∀ tree, P tree → Q (.paren tree)) : ReadsOperand ('(' :: (cs ++ [')'])) Q := by
  have sign : ∀ {rest}, Starts ('(' :: (cs ++ [')']) ++ rest) (.sign "(") (cs ++ ')' :: rest) := by
    intro rest
    rw [List.cons_append, List.append_assoc]
    exact starts_bracket '(' (by decide)
  have encloses : ∀ {rest} fuel (next : Cursor), next.At (cs ++ ')' :: rest) →
      (enclosed fuel top).Gives next fun inner last =>
        last.At rest ∧ ∃ tree, inner = ⟨[.item tree], false⟩ ∧ Q (.paren tree) := by
    intro rest fuel next stands
    have closes : GoesOn closers (')' :: rest) := goesOn_bracket (by decide)
    refine (enclosed_gives (expression.opens closes stands) stands fun fuel =>
      expression.assignment fuel closes).mono fun inner last read => ?_
    obtain ⟨standsLast, tree, same, has⟩ := read
    exact ⟨standsLast, tree, same, grouped tree has⟩
  refine ⟨⟨'(', _, rfl, by decide⟩, fun _ stands => ?_, fun _ stands => ?_,
    fun fuel rest goesOn cursor stands => ?_⟩
  · rw [(sign _ stands).1]
    decide
  · obtain ⟨token, behind⟩ := sign _ stands
    exact .inr ⟨token, fun fuel next standsNext => encloses fuel next (behind ▸ standsNext)⟩
  · obtain ⟨token, behind⟩ := sign _ stands
    refine unary_gives (by rw [token]; decide) (fun fuel => ?_)
    refine (accessed_of_primary goesOn (fun fuel => ?_) fuel).mono fun tree next read =>
      ⟨goesOn.token next read.1, read⟩
    cases fuel with
    | zero => exact gives_failure _
    | succ fuel =>
        rw [primary]
        apply gives_cursor
        rw [token]
        apply gives_skip
        intro next standsNext
        rw [behind] at standsNext
        refine (encloses fuel next standsNext).bind fun inner last read => ?_
        obtain ⟨standsLast, tree, rfl, has⟩ := read
        exact gives_pure ⟨standsLast, has⟩

/-! ## Operators between operands -/

/-- Behind the first operand stands an operator with its right operand, behind which no operator
that binds more tightly stands. -/
theorem infixedRest_reads {s : String} {op : Infix} {binding : Nat} (listed : s ∈ infixes)
    (denotes : Infix.ofToken true (.sign s) = some (op, binding + 1)) (right : ReadsOperand cs P)
    (goesOn : GoesOn followers (tail ++ rest))
    (ends : ∀ cursor : Cursor, cursor.At (tail ++ rest) →
      cursor.token ∈ closers ∨ cursor.token = .sign "||" ∧ binding + 1 = 2)
    (continues : ∀ fuel r tree, P r → op.tree? left r = some tree →
      Reads (infixedRest fuel top 0 tree) tail rest Q)
    (fuel : Nat) : Reads (infixedRest fuel top 0 left) (s.toList ++ (cs ++ tail)) rest Q := by
  intro cursor stands
  rw [List.append_assoc, List.append_assoc] at stands
  obtain ⟨token, behind⟩ := starts_operator (List.mem_cons_of_mem _ listed) right.apart cursor stands
  cases fuel with
  | zero => exact gives_failure _
  | succ fuel =>
      have membership : top.membership = true := rfl
      rw [infixedRest]
      apply gives_cursor
      rw [membership, token, denotes]
      simp only
      rw [if_neg (by simp)]
      apply gives_skip
      intro next standsNext
      rw [behind] at standsNext
      have reads : (infixed fuel top (binding + 1)).Gives next
          fun tree last => last.At (tail ++ rest) ∧ P tree := by
        refine infixed_gives (right.opens goesOn standsNext)
          (fun fuel => right.unary fuel goesOn next standsNext) fun fuel tree last read => ?_
        refine (infixedRest_gives (ends last read.1)).mono fun tree after same => ?_
        rw [same.1, same.2]
        exact read
      refine reads.bind fun r last read => ?_
      split
      case h_1 tree made => exact continues fuel r tree read.2 made last read.1
      case h_2 => exact gives_failure _

/-- An operand and the operators behind it make an expression. -/
theorem ReadsOperand.followed (operand : ReadsOperand cs P)
    (goesOn : ∀ rest, GoesOn closers rest → GoesOn followers (tail ++ rest))
    (remainder : ∀ rest, GoesOn closers rest → ∀ fuel left, P left →
      Reads (infixedRest fuel top 0 left) tail rest Q) : ReadsExpression (cs ++ tail) Q where
  opens := fun closes stands => by
    rw [List.append_assoc] at stands
    exact operand.opens (goesOn _ closes) stands
  assignment := fun fuel _ closes =>
    assignment_reads operand (goesOn _ closes) closes (remainder _ closes) fuel

theorem ReadsOperand.expression (operand : ReadsOperand cs P) : ReadsExpression cs P := by
  have followed : ReadsExpression (cs ++ []) P :=
    operand.followed (fun rest closes => closes.of_closers) fun rest closes fuel left has =>
      fun cursor stands => (infixedRest_gives (.inl (closes.token cursor stands))).mono
        fun tree next same => by
          rw [same.1, same.2]
          exact ⟨stands, has⟩
  rwa [List.append_nil] at followed

end Parser

end UiDoc.Script
