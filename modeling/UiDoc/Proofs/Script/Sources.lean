import UiDoc.Script.Program

/-!
# Reading given sources

Whether a given source is read as a tree of names, numbers, members and calls can be tested, so that
the tree of a script need not be derived step by step.
-/

namespace UiDoc.Script

mutual

/-- Whether two trees are the same, and consist of names, numbers, accesses, calls and operators
between operands only. -/
def Tree.alike : Tree → Tree → Bool
  | .name a, .name b => a == b
  | .number x, .number y => decide (x = y)
  | .member s a o, .member t b p => s.alike t && a == b && o == p
  | .index s k o, .index t l p => s.alike t && k.alike l && o == p
  | .binary f s k, .binary g t l => decide (f = g) && s.alike t && k.alike l
  | .call s as o, .call t bs p => s.alike t && argumentsAlike as bs && o == p
  | _, _ => false
termination_by structural t => t

/-- Whether two lists of arguments are alike. -/
def argumentsAlike : List (Element Tree) → List (Element Tree) → Bool
  | [], [] => true
  | .item s :: ss, .item t :: ts => s.alike t && argumentsAlike ss ts
  | _, _ => false
termination_by structural t => t

end

theorem Tree.eq_of_alike (s t : Tree) : s.alike t = true → s = t := by
  refine Tree.alike.induct (fun s t => s.alike t = true → s = t)
    (fun ss ts => argumentsAlike ss ts = true → ss = ts) ?name ?number ?member ?index ?binary ?call
    ?others ?nil ?cons ?otherArguments s t
  case name =>
    intro a b same
    rw [eq_of_beq same]
  case number =>
    intro x y same
    rw [of_decide_eq_true same]
  case member =>
    intro s a o t b p ih same
    simp only [alike, Bool.and_eq_true, beq_iff_eq] at same
    rw [ih same.1.1, same.1.2, same.2]
  case index =>
    intro s k o t l p ih ihKey same
    simp only [alike, Bool.and_eq_true, beq_iff_eq] at same
    rw [ih same.1.1, ihKey same.1.2, same.2]
  case binary =>
    intro f s k g t l ih ihRight same
    simp only [alike, Bool.and_eq_true, decide_eq_true_eq] at same
    rw [same.1.1, ih same.1.2, ihRight same.2]
  case call =>
    intro s as o t bs p ih ihArguments same
    simp only [alike, Bool.and_eq_true, beq_iff_eq] at same
    rw [ih same.1.1, ihArguments same.1.2, same.2]
  case others =>
    intro s t _ _ _ _ _ _ same
    rw [alike] at same
    · cases same
    all_goals assumption
  case nil => exact fun _ => rfl
  case cons =>
    intro s ss t ts ih ihRest same
    simp only [argumentsAlike, Bool.and_eq_true] at same
    rw [ih same.1, ihRest same.2]
  case otherArguments =>
    intro ss ts _ _ same
    rw [argumentsAlike] at same
    · cases same
    all_goals assumption

/-- A source is read as a tree if what it is read as is like the tree. -/
theorem Tree.parse?_of_alike {source : String} {tree : Tree}
    (read : (Tree.parse? source).any tree.alike = true) : Tree.parse? source = some tree := by
  obtain ⟨found, parsed, same⟩ := (Option.any_eq_true _ _).1 read
  rw [parsed, Tree.eq_of_alike tree found same]

theorem Program.compile?_of_parse {source : String} {tree : Tree} {term : Term}
    {free : List String} (parsed : Tree.parse? source = some tree)
    (made : Term.ofTree? tree = some term) (names : tree.free = free) :
    Program.compile? source = some ⟨term, free⟩ := by
  rw [Program.compile?, parsed]
  simp only [Option.bind_eq_bind, Option.bind_some, made, names]
  rfl

end UiDoc.Script
