import UiDoc.Proofs.Script.Confinement
import UiDoc.Proofs.Script.Sources
import UiDoc.Proofs.Script.Steps

/-!
# Chains of members

A chain goes from a value to one of its members, and from there to a member of that one.  Each link
stands for itself: an optional link lets `null` pass, but it does not end the chain, so that the
links behind it have to be optional as well.
-/

namespace UiDoc.Script

/-- A link of a chain: the name of a member, and whether the link is optional. -/
abbrev Link := String × Bool

/-- A tree with links behind it. -/
def Tree.chain (tree : Tree) (links : List Link) : Tree :=
  links.foldl (fun target link => .member target link.1 link.2) tree

/-- A term with links behind it. -/
def Term.chain (term : Term) (links : List Link) : Term :=
  links.foldl (fun target link => .member target link.1 link.2) term

/-- What is reached from a value along links. -/
def accessAll (v : Value) (links : List Link) : Except Fault Value :=
  links.foldlM (fun target link => access target link.1 link.2) v

variable {scope : Scope} {tree : Tree} {term : Term} {links : List Link} {v w : Value}
  {machine after : Machine}

namespace Tree

theorem mentions_chain (tree : Tree) (links : List Link) :
    (tree.chain links).mentions = tree.mentions := by
  induction links generalizing tree with
  | nil => rfl
  | cons link links ih => exact ih _

theorem free_chain (tree : Tree) (links : List Link) : (tree.chain links).free = tree.free := by
  rw [free, free, mentions_chain]

theorem ofTree?_chain (made : Term.ofTree? tree = some term) (links : List Link) :
    Term.ofTree? (tree.chain links) = some (term.chain links) := by
  induction links generalizing tree term with
  | nil => exact made
  | cons link links ih =>
      apply ih
      rw [Term.ofTree?, made]
      rfl

end Tree

/-! ## Running along a chain -/

theorem run_charged {α : Type} {x : Run α} {a : α} :
    (Run.charge 1 >>= fun _ => x).run.run machine = (.ok a, after) ↔
      machine.steps + 1 ≤ maxSteps ∧ x.run.run (machine.later 1) = (.ok a, after) := by
  rw [Run.run_bind_eq_ok]
  constructor
  · rintro ⟨_, mid, charged, ran⟩
    rw [Run.run_charge] at charged
    obtain ⟨room, rfl⟩ := Prod.mk.inj charged
    split at room
    case isTrue => cases room
    case isFalse => exact ⟨Nat.le_of_not_lt ‹_›, ran⟩
  · rintro ⟨room, ran⟩
    refine ⟨(), _, ?_, ran⟩
    rw [Run.run_charge, if_neg (Nat.not_lt.2 room)]
    rfl

/-- A term that gives something has had a step left to take. -/
theorem room_of_eval (gives : (eval scope term).run.run machine = (.ok v, after)) :
    machine.steps + 1 ≤ maxSteps := by
  cases term <;> exact (run_charged.1 gives).1

theorem run_ofExcept {α : Type} {outcome : Except Fault α} {a : α} :
    (Run.ofExcept outcome).run.run machine = (.ok a, after) ↔
      outcome = .ok a ∧ machine = after := by
  cases outcome with
  | error fault => exact ⟨nofun, fun ⟨same, _⟩ => nomatch same⟩
  | ok b =>
      constructor
      · intro ran
        cases ran
        exact ⟨rfl, rfl⟩
      · rintro ⟨same, rfl⟩
        cases same
        rfl

/-- A link takes its step before the value in front of it is looked at. -/
theorem run_member (target : Term) (link : Link) :
    (eval scope (.member target link.1 link.2)).run.run machine = (.ok w, after) ↔
      ∃ v, (eval scope target).run.run (machine.later 1) = (.ok v, after) ∧
        access v link.1 link.2 = .ok w := by
  rw [eval, run_charged, Run.run_bind_eq_ok]
  constructor
  · rintro ⟨-, v, mid, gives, reached⟩
    obtain ⟨same, rfl⟩ := run_ofExcept.1 reached
    exact ⟨v, gives, same⟩
  · rintro ⟨v, gives, reached⟩
    have room := room_of_eval gives
    exact ⟨Nat.le_of_succ_le room, v, after, gives, run_ofExcept.2 ⟨reached, rfl⟩⟩

theorem run_chain (links : List Link) (term : Term) :
    (eval scope (term.chain links)).run.run machine = (.ok w, after) ↔
      ∃ v, (eval scope term).run.run (machine.later links.length) = (.ok v, after) ∧
        accessAll v links = .ok w := by
  induction links generalizing term with
  | nil =>
      constructor
      · exact fun gives => ⟨w, gives, rfl⟩
      · rintro ⟨v, gives, same⟩
        cases same
        exact gives
  | cons link links ih =>
      rw [Term.chain, List.foldl_cons]
      refine (ih _).trans ?_
      constructor
      · rintro ⟨u, gives, others⟩
        obtain ⟨v, gives, first⟩ := (run_member term link).1 gives
        refine ⟨v, gives, ?_⟩
        rw [accessAll, List.foldlM_cons, first]
        exact others
      · rintro ⟨v, gives, reached⟩
        rw [accessAll, List.foldlM_cons] at reached
        cases first : access v link.1 link.2 with
        | error fault =>
            rw [first] at reached
            cases reached
        | ok u =>
            rw [first] at reached
            exact ⟨u, (run_member term link).2 ⟨v, gives, first⟩, reached⟩

/-! ## Links behind what is undefined or `null` -/

theorem access_of_nullish (nullish : Value.nullish v = true) (link : Link) :
    access v link.1 link.2 = if link.2 then .ok none else .error .mistyped := by
  match v, nullish with
  | none, _ | some .null, _ => rfl

/-- Optional links lead to undefined, and no other links can be followed. -/
theorem accessAll_of_nullish (nullish : Value.nullish v = true) (filled : links ≠ []) :
    accessAll v links =
      if ∀ link ∈ links, link.2 = true then .ok none else .error .mistyped := by
  induction links generalizing v with
  | nil => exact absurd rfl filled
  | cons link links ih =>
      obtain ⟨name, optional⟩ := link
      rw [accessAll, List.foldlM_cons, access_of_nullish nullish]
      cases optional with
      | false => exact (if_neg fun all => nomatch all (name, false) (List.mem_cons_self ..)).symm
      | true =>
          simp only [List.forall_mem_cons, true_and, if_true]
          by_cases last : links = []
          · subst last
            exact (if_pos nofun).symm
          · exact ih rfl last

/-- A chain is no function, whatever stands in front of it. -/
theorem body_chain (filled : links ≠ []) (term : Term) (args : List Value) :
    Program.body scope args (term.chain links) = eval scope (term.chain links) := by
  obtain ⟨front, last, rfl⟩ := (List.eq_nil_or_concat links).resolve_left filled
  rw [List.concat_eq_append, Term.chain, List.foldl_append]
  rfl

/-- The links behind what is `null` or undefined give undefined if all of them are optional, and
the script is rejected if one of them is not. -/
theorem Cache.evaluate_chain {cache : Cache} (faithful : cache.Faithful) {source : String}
    (parsed : Tree.parse? source = some (tree.chain links)) (filled : links ≠ [])
    (made : Term.ofTree? tree = some term)
    (known : ∀ name ∈ tree.free, Program.isKnown scope name = true)
    (gives : (eval scope term).run.run {} = (.ok v, after)) (nullish : Value.nullish v = true)
    (args : List Value) :
    (cache.evaluate source scope args).1 =
      if (∀ link ∈ links, link.2 = true) ∧ after.steps + links.length ≤ maxSteps then some none
      else none := by
  have compiled : Program.compile? source = some ⟨term.chain links, tree.free⟩ :=
    Program.compile?_of_parse parsed (Tree.ofTree?_chain made links) (Tree.free_chain tree links)
  have shifted := Run.shifted_eval gives
  have runs (w : Value) : (cache.evaluate source scope args).1 = some w ↔
      ∃ u rest, (eval scope term).run.run (Machine.later {} links.length) = (.ok u, rest) ∧
        accessAll u links = .ok w := by
    rw [(faithful.evaluate source scope args).1, compiled, Option.bind_some,
      Program.run?_eq_some]
    simp only [body_chain filled, run_chain]
    constructor
    · rintro ⟨-, rest, u, ran, reached⟩
      exact ⟨u, rest, ran, reached⟩
    · rintro ⟨u, rest, ran, reached⟩
      exact ⟨known, rest, u, ran, reached⟩
  split
  case isTrue followed =>
    obtain ⟨optional, room⟩ := followed
    refine (runs none).2 ⟨v, _, shifted.within _ room, ?_⟩
    rw [accessAll_of_nullish nullish filled, if_pos optional]
  case isFalse stuck =>
    refine Option.eq_none_iff_forall_ne_some.2 fun w gave => ?_
    obtain ⟨u, rest, ran, reached⟩ := (runs w).1 gave
    by_cases room : after.steps + links.length ≤ maxSteps
    · rw [shifted.within _ room] at ran
      cases ran
      rw [accessAll_of_nullish nullish filled, if_neg fun optional => stuck ⟨optional, room⟩]
        at reached
      cases reached
    · have begun := room_of_eval ran
      have fault := shifted.beyond links.length (Nat.le_of_succ_le begun) (Nat.lt_of_not_le room)
      rw [ran] at fault
      cases fault

/-- Both links of a chain are optional, and what it starts from is `null`. -/
theorem Cache.evaluate_chain_optional :
    let scope : Scope := { data := .obj [("user", .null)] }
    let links : List Link := [("name", true), ("first", true)]
    Tree.parse? "user?.name?.first" = some ((Tree.name "user").chain links) ∧
      (({} : Cache).evaluate "user?.name?.first" scope []).1 = some none := by
  intro scope links
  have parsed : Tree.parse? "user?.name?.first" = some ((Tree.name "user").chain links) :=
    Tree.parse?_of_alike (by decide +kernel)
  have gives : (eval scope (.name "user")).run.run {} = (.ok (some .null), { steps := 1 }) := rfl
  have evaluated := Cache.evaluate_chain faithful_empty parsed nofun rfl (by decide) gives rfl []
  refine ⟨parsed, evaluated.trans (if_pos ⟨by decide, ?_⟩)⟩
  decide

/-- The first link of a chain is optional and lets `null` pass, but it does not end the chain. -/
theorem Cache.evaluate_chain_plain :
    let scope : Scope := { data := .obj [("user", .null)] }
    (({} : Cache).evaluate "user" scope []).1.map Value.nullish = some true ∧
      (({} : Cache).evaluate "user?.name.first" scope []).1.isNone = true := by
  decide +kernel

end UiDoc.Script
