import UiDoc.Proofs.Script.Runs
import UiDoc.Script.Names
import UiDoc.Script.Term

/-!
# What trees mean

A tree means a value in a scope if the script that it is part of can give nothing else there: it may
be that no script may use the tree, or that its evaluation is abandoned.
-/

namespace UiDoc.Script

variable {scope : Scope} {tree target key left right : Tree} {v w l r : Value}

/-- An evaluation without parameters gives nothing but the value. -/
abbrev Run.GivesOnly (x : Run Value) (v : Value) : Prop :=
  x.Ensures (· = []) (· = v)

/-- If the tree has a term, this is no function, and nothing but the value can be its value. -/
def Means (scope : Scope) (tree : Tree) (v : Value) : Prop :=
  ∀ term, Term.ofTree? tree = some term →
    (∀ parameters body, term ≠ .function parameters body) ∧ (eval scope term).GivesOnly v

/-- Some value that is not defined cannot be stepped into. -/
theorem Run.givesOnly_access (v : Value) (name : String) :
    (Run.ofExcept (access v name false)).GivesOnly (v.bind (Path.step · name)) := by
  apply Run.ensures_ofExcept
  intro w found
  cases v with
  | none => cases found
  | some json =>
      cases json with
      | null => cases found
      | bool _ | num _ | str _ | arr _ | obj _ => exact (Except.ok.inj found).symm

theorem means_literal {json : Json} (term : Term.ofTree? tree = some (.literal json)) :
    Means scope tree (some json) := by
  intro found made
  cases term.symm.trans made
  refine ⟨nofun, ?_⟩
  apply Run.Ensures.charged
  exact Run.ensures_pure rfl

theorem means_undefined : Means scope (.name "undefined") none := by
  intro found made
  cases made
  refine ⟨nofun, ?_⟩
  rw [Term.ofName, if_pos rfl]
  apply Run.Ensures.charged
  exact Run.ensures_pure rfl

/-- A name means what it denotes in the scope, unless it has a meaning of its own. -/
theorem means_name {n : String} (plain : n ∉ ["undefined", "NaN", "Infinity"]) :
    Means scope (.name n) (scopeValue? scope n) := by
  simp only [List.mem_cons, List.not_mem_nil, or_false, not_or] at plain
  obtain ⟨notUndefined, notConstant⟩ := plain
  intro found made
  cases made
  rw [Term.ofName, if_neg notUndefined, if_neg (not_or.2 notConstant)]
  refine ⟨fun _ _ => Term.noConfusion, ?_⟩
  apply Run.Ensures.charged
  unfold nameValue
  refine Run.ensures_get.bind fun machine noLocals => ?_
  rw [noLocals, List.lookup_nil]
  cases scopeValue? scope n with
  | none => exact Run.ensures_throw _ _
  | some v => exact Run.ensures_pure rfl

theorem means_paren (inner : Means scope tree v) : Means scope (.paren tree) v :=
  inner

theorem means_member (n : String) (means : Means scope target v) :
    Means scope (.member target n false) (v.bind (Path.step · n)) := by
  intro term made
  obtain ⟨receiver, madeReceiver, rfl⟩ := Option.map_eq_some_iff.1 made
  refine ⟨nofun, ?_⟩
  refine Run.Ensures.charged (((means receiver madeReceiver).2).bind fun w same => ?_) 1
  rw [same]
  exact Run.givesOnly_access v n

theorem means_index (meansTarget : Means scope target v) (meansKey : Means scope key w) :
    Means scope (.index target key false) (v.bind (Path.step · (Value.text w))) := by
  intro term made
  obtain ⟨receiver, madeReceiver, made⟩ := Option.bind_eq_some_iff.1 made
  obtain ⟨place, madePlace, made⟩ := Option.bind_eq_some_iff.1 made
  cases made
  refine ⟨nofun, ?_⟩
  refine Run.Ensures.charged ((meansTarget receiver madeReceiver).2.bind fun a same => ?_) 1
  refine (meansKey place madePlace).2.bind fun b sameKey => ?_
  rw [same, sameKey]
  exact Run.givesOnly_access v (Value.text w)

theorem means_unary (op : UnaryOp) (means : Means scope tree v) :
    Means scope (.unary op tree) (op.apply v) := by
  intro term made
  obtain ⟨operand, madeOperand, rfl⟩ := Option.map_eq_some_iff.1 made
  refine ⟨nofun, ?_⟩
  refine Run.Ensures.charged ((means operand madeOperand).2.bind fun w same => ?_) 1
  rw [same]
  exact Run.ensures_pure rfl

theorem means_compare (comparison : Comparison) (meansLeft : Means scope left l)
    (meansRight : Means scope right r) :
    Means scope (.binary (.compare comparison) left right)
      (some (.bool (comparison.holds l r))) := by
  intro term made
  obtain ⟨first, madeFirst, made⟩ := Option.bind_eq_some_iff.1 made
  obtain ⟨second, madeSecond, made⟩ := Option.bind_eq_some_iff.1 made
  cases made
  refine ⟨nofun, ?_⟩
  refine Run.Ensures.charged ((meansLeft first madeFirst).2.bind fun a sameLeft => ?_) 1
  refine (meansRight second madeSecond).2.bind fun b sameRight => ?_
  rw [sameLeft, sameRight]
  exact Run.ensures_pure rfl

/-- The second operand of `||` counts only if the first one does not. -/
theorem means_or (meansLeft : Means scope left l) (meansRight : Means scope right r) :
    Means scope (.logical .or left right) (if Value.truthy l then l else r) := by
  intro term made
  obtain ⟨first, madeFirst, made⟩ := Option.bind_eq_some_iff.1 made
  obtain ⟨second, madeSecond, made⟩ := Option.bind_eq_some_iff.1 made
  cases made
  refine ⟨nofun, ?_⟩
  refine Run.Ensures.charged ((meansLeft first madeFirst).2.bind fun a same => ?_) 1
  rw [same, LogicalOp.decides]
  split
  · exact Run.ensures_pure rfl
  · exact (meansRight second madeSecond).2

end UiDoc.Script
