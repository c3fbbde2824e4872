import UiDoc.Proofs.Script.Confinement
import UiDoc.Proofs.Script.Steps

/-!
# What an evaluation costs

Where no function is running and enough steps are left, the value of a small script and the number
of its steps can be told from those of its parts.
-/

namespace UiDoc.Script

theorem Machine.later_later (machine : Machine) (first second : Nat) :
    (machine.later first).later second = machine.later (first + second) := by
  simp only [later, Nat.add_assoc]

/-- The run gives a value and takes some steps, where these are left and no function is running. -/
def Run.Takes {α : Type} (x : Run α) (count : Nat) (a : α) : Prop :=
  ∀ machine : Machine, machine.locals = [] → machine.steps + count ≤ maxSteps →
    x.run.run machine = (.ok a, machine.later count)

namespace Run

variable {α β : Type} {x : Run α} {f : α → Run β} {a : α} {b : β} {m n : Nat}

theorem takes_pure (a : α) : (pure a : Run α).Takes 0 a :=
  fun _ _ _ => rfl

theorem Takes.bind (first : x.Takes m a) (second : (f a).Takes n b) :
    (x >>= f).Takes (m + n) b := by
  intro machine empty room
  have roomFirst : machine.steps + m ≤ maxSteps := by omega
  have roomSecond : (machine.later m).steps + n ≤ maxSteps := by
    rw [Machine.steps_later]
    omega
  exact run_bind_eq_ok.2 ⟨a, machine.later m, first machine empty roomFirst, by
    rw [second (machine.later m) empty roomSecond, Machine.later_later]⟩

/-- What takes no steps of its own may stand at the end. -/
theorem Takes.ends (first : x.Takes m a) (last : (f a).Takes 0 b) : (x >>= f).Takes m b :=
  first.bind last

theorem takes_charge (count : Nat) : (charge count).Takes count () := by
  intro machine _ room
  rw [run_charge, if_neg (Nat.not_lt.2 room)]
  rfl

theorem takes_ofExcept {outcome : Except Fault α} (gives : outcome = .ok a) :
    (ofExcept outcome).Takes 0 a := by
  subst gives
  exact takes_pure a

/-- A text that is built is looked at once, to see whether it is too long. -/
theorem takes_built_text {s : String} (short : s.utf8ByteSize ≤ maxTextBytes) :
    (built (some (.str s))).Takes 0 (some (.str s)) :=
  takes_ofExcept (if_pos (decide_eq_true short))

theorem takes_built_number (number : Num) :
    (built (some (.num number))).Takes 0 (some (.num number)) :=
  takes_ofExcept rfl

end Run

/-! ## Terms -/

section Terms

variable {scope : Scope} {term target key left right : Term} {arguments : List Term}
  {args : List Arg} {v w u : Value} {json : Json} {m n : Nat}

theorem takes_name {name : String} (value : scopeValue? scope name = some json) :
    (eval scope (.name name)).Takes 1 (some json) := by
  refine (Run.takes_charge 1).ends fun machine empty _ => ?_
  rw [Run.run_nameValue, empty, value]
  rfl

theorem takes_literal (json : Json) : (eval scope (.literal json)).Takes 1 (some json) :=
  (Run.takes_charge 1).ends (Run.takes_pure _)

theorem takes_index {optional : Bool} (first : (eval scope target).Takes m v)
    (second : (eval scope key).Takes n w) (reached : access v (Value.text w) optional = .ok u) :
    (eval scope (.index target key optional)).Takes (1 + (m + n)) u :=
  (Run.takes_charge 1).bind (first.bind (second.ends (Run.takes_ofExcept reached)))

theorem takes_binary {op : BinaryOp} (first : (eval scope left).Takes m v)
    (second : (eval scope right).Takes n w) (gives : op.apply v w = .ok u) :
    (eval scope (.binary op left right)).Takes (1 + (m + n)) u :=
  (Run.takes_charge 1).bind (first.bind (second.ends (Run.takes_ofExcept gives)))

theorem takes_noArguments : (evalArguments scope []).Takes 0 [] :=
  Run.takes_pure []

theorem takes_argument (plain : ∀ parameters body, term ≠ .function parameters body)
    (first : (eval scope term).Takes m v) (others : (evalArguments scope arguments).Takes n args) :
    (evalArguments scope (term :: arguments)).Takes (m + n) (.value v :: args) := by
  rw [evalArguments]
  · exact first.bind (others.ends (Run.takes_pure _))
  · exact plain

/-- A method of a text that gives a value at once. -/
theorem takes_textMethod {s : String} {method : Method} {optional : Bool}
    (first : (eval scope target).Takes m (some (.str s)))
    (others : (evalArguments scope arguments).Takes n args)
    (gives : method.applyToText s.toList args = .ok u) (built : (Run.built u).Takes 0 u) :
    (eval scope (.method target method optional arguments)).Takes (1 + (m + n)) u := by
  refine (Run.takes_charge 1).bind (first.bind ?_)
  exact others.ends ((Run.takes_ofExcept gives).ends built)

/-- A script gives what its term does, if that takes no more steps than a script may take. -/
theorem Cache.evaluate_of_takes {cache : Cache} (faithful : cache.Faithful) {source : String}
    {free : List String} (compiled : Program.compile? source = some ⟨term, free⟩)
    (known : ∀ name ∈ free, (scopeValue? scope name).isSome = true)
    (plain : ∀ parameters body, term ≠ .function parameters body)
    (takes : (eval scope term).Takes n v) (room : n ≤ maxSteps) (args : List Value) :
    (cache.evaluate source scope args).1 = some v := by
  have provided : ∀ name ∈ free, Program.isKnown scope name = true := by
    intro name member
    have value := known name member
    by_cases unknown : Program.isKnown scope name = true
    · exact unknown
    · rw [scopeValue?_of_unknown (Bool.eq_false_iff.2 unknown)] at value
      cases value
  have body : Program.body scope args term = eval scope term := by
    rw [Program.body]
    exact plain
  rw [(faithful.evaluate source scope args).1, compiled, Option.bind_some, Program.run?_eq_some,
    body]
  exact ⟨provided, _, takes {} rfl (by simpa using room)⟩

end Terms

end UiDoc.Script
