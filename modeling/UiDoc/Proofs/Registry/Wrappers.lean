import UiDoc.Proofs.Registry.Memo

/-!
# Chains of wrappers

The wrapper of a type stands in for it, the wrapper of the wrapper for that, and so on.  A chain of
wrappers ends, or it comes to a type for the second time; either is found out after no more links
than there are entries, and what is registered for the types on the way plays no part.
-/

namespace UiDoc.Registry

variable {r : Registry} {name wrapper last kind : String} {i n : Nat}

/-! ## Links -/

/-- The type behind so many links, if the chain of wrappers is that long. -/
def chain (r : Registry) (name : String) : (links : Nat) → Option String
  | 0 => some name
  | links + 1 => (r.chain name links).bind r.wrapper?

/-- The chain of wrappers comes to a type for the second time. -/
def Recurs (r : Registry) (name : String) : Prop :=
  ∃ i j kind, i < j ∧ r.chain name i = some kind ∧ r.chain name j = some kind

theorem chain_add (r : Registry) (name : String) (i j : Nat) :
    r.chain name (i + j) = (r.chain name i).bind fun kind => r.chain kind j := by
  induction j with
  | zero => exact (Option.bind_fun_some _).symm
  | succ j ih =>
      have next : r.chain name (i + (j + 1)) = (r.chain name (i + j)).bind r.wrapper? := rfl
      rw [next, ih, Option.bind_assoc]
      rfl

/-- The first link leads to the wrapper, whose chain the others are. -/
theorem chain_succ (found : r.wrapper? name = some wrapper) (n : Nat) :
    r.chain name (n + 1) = r.chain wrapper n := by
  have first : r.chain name 1 = some wrapper := found
  rw [Nat.add_comm, chain_add, first, Option.bind_some]

theorem isSome_chain_of_le (long : (r.chain name n).isSome) (le : i ≤ n) :
    (r.chain name i).isSome := by
  obtain ⟨more, rfl⟩ := Nat.exists_eq_add_of_le le
  rw [chain_add] at long
  cases found : r.chain name i with
  | none => simp [found] at long
  | some kind => rfl

/-- A chain that comes to a type for the second time never ends. -/
theorem Recurs.isSome_chain (recurs : r.Recurs name) (n : Nat) : (r.chain name n).isSome := by
  obtain ⟨i, j, kind, less, first, second⟩ := recurs
  induction n using Nat.strongRecOn with
  | ind n ih =>
      rcases Nat.le_total n j with le | ge
      · exact isSome_chain_of_le (by rw [second]; rfl) le
      · -- What stands behind the second place stands behind the first.
        obtain ⟨more, rfl⟩ := Nat.exists_eq_add_of_le ge
        rw [chain_add, second, ← first, ← chain_add]
        exact ih (i + more) (by omega)

theorem not_recurs (ends : r.chain name n = some last) (unwrapped : r.wrapper? last = none) :
    ¬ r.Recurs name := by
  intro recurs
  have next := recurs.isSome_chain (n + 1)
  rw [chain, ends, Option.bind_some, unwrapped] at next
  cases next

theorem wrapper?_ne_empty (r : Registry) (name : String) : r.wrapper? name ≠ some "" := by
  intro found
  obtain ⟨entry, -, wraps⟩ := Option.bind_eq_some_iff.1 found
  unfold RegistryEntry.wrapper at wraps
  split at wraps
  · obtain ⟨-, named⟩ := Option.filter_eq_some_iff.1 wraps
    simp at named
  · cases wraps

/-- Every type in the chain of a type with a name has a name. -/
theorem ne_empty_of_chain (named : name ≠ "") (found : r.chain name n = some kind) : kind ≠ "" := by
  rintro rfl
  cases n with
  | zero => exact named (Option.some.inj found)
  | succ n =>
      obtain ⟨before, -, wraps⟩ := Option.bind_eq_some_iff.1 found
      exact r.wrapper?_ne_empty before wraps

/-! ## Following the links -/

/-- How many links are followed to the end of the chain, or to the first type that has been
visited. -/
def chainLength (r : Registry) (visited : List String) (name : String) : Nat :=
  if _new : name ∈ visited then 0
  else
    match _found : r.wrapper? name with
    | some wrapper => r.chainLength (name :: visited) wrapper + 1
    | none => 0
termination_by (r.unvisited visited).length
decreasing_by exact unvisited_length_lt _new _found

/-- One step along the chain: it stops at a type that has been visited, and at one without a
wrapper, and otherwise follows a link. -/
inductive Follows (r : Registry) (visited : List String) (name : String) : Prop where
  | circle (known : name ∈ visited) (result : r.chainEnd visited name = none)
      (length : r.chainLength visited name = 0)
  | ends (new : name ∉ visited) (unwrapped : r.wrapper? name = none)
      (result : r.chainEnd visited name = some name) (length : r.chainLength visited name = 0)
  | link (wrapper : String) (new : name ∉ visited) (found : r.wrapper? name = some wrapper)
      (result : r.chainEnd visited name = r.chainEnd (name :: visited) wrapper)
      (length : r.chainLength visited name = r.chainLength (name :: visited) wrapper + 1)

theorem follows (r : Registry) (visited : List String) (name : String) :
    r.Follows visited name := by
  by_cases known : name ∈ visited
  · exact .circle known (by rw [chainEnd, dif_pos known]) (by rw [chainLength, dif_pos known])
  · cases found : r.wrapper? name with
    | none =>
        refine .ends known found ?_ ?_
        · rw [chainEnd, dif_neg known]
          split <;> simp_all
        · rw [chainLength, dif_neg known]
          split <;> simp_all
    | some wrapper =>
        refine .link wrapper known found ?_ ?_
        · rw [chainEnd, dif_neg known]
          split <;> simp_all
        · rw [chainLength, dif_neg known]
          split <;> simp_all

/-- Every link leaves one entry less that has not been visited. -/
theorem chainLength_le (r : Registry) (visited : List String) (name : String) :
    r.chainLength visited name ≤ (r.unvisited visited).length := by
  rcases r.follows visited name with
    ⟨-, -, length⟩ | ⟨-, -, -, length⟩ | ⟨wrapper, new, found, -, length⟩
  · omega
  · omega
  · have fewer := unvisited_length_lt new found
    have rest := r.chainLength_le (name :: visited) wrapper
    omega
termination_by (r.unvisited visited).length

/-- The last type in the chain is where the links lead, and it has no wrapper. -/
theorem chain_of_chainEnd (visited : List String) (name : String)
    (ends : r.chainEnd visited name = some last) :
    r.chain name (r.chainLength visited name) = some last ∧ r.wrapper? last = none := by
  rcases r.follows visited name with
    ⟨-, result, -⟩ | ⟨-, unwrapped, result, length⟩ | ⟨wrapper, new, found, result, length⟩
  · rw [result] at ends
    cases ends
  · rw [result] at ends
    cases ends
    exact ⟨by rw [length, chain], unwrapped⟩
  · have fewer := unvisited_length_lt new found
    rw [length, chain_succ found]
    exact chain_of_chainEnd (name :: visited) wrapper (result ▸ ends)
termination_by (r.unvisited visited).length

/-- If the chain is a circle, the links lead to a type that was there before. -/
theorem chain_of_circle (visited : List String) (name : String)
    (circle : r.chainEnd visited name = none) :
    ∃ kind, r.chain name (r.chainLength visited name) = some kind ∧
      (kind ∈ visited ∨ ∃ i < r.chainLength visited name, r.chain name i = some kind) := by
  rcases r.follows visited name with
    ⟨known, -, length⟩ | ⟨-, -, result, -⟩ | ⟨wrapper, new, found, result, length⟩
  · exact ⟨name, by rw [length, chain], .inl known⟩
  · rw [result] at circle
    cases circle
  · have fewer := unvisited_length_lt new found
    obtain ⟨kind, leads, before⟩ := chain_of_circle (name :: visited) wrapper (result ▸ circle)
    rw [length]
    refine ⟨kind, by rw [chain_succ found, leads], ?_⟩
    rcases before with known | ⟨i, less, earlier⟩
    · rcases List.mem_cons.1 known with rfl | known
      · exact .inr ⟨0, Nat.succ_pos _, rfl⟩
      · exact .inl known
    · exact .inr ⟨i + 1, Nat.succ_lt_succ less, by rw [chain_succ found, earlier]⟩
termination_by (r.unvisited visited).length

/-- The chain of a type comes to some type twice exactly if it has no end. -/
theorem recurs_iff : r.Recurs name ↔ r.chainEnd [] name = none := by
  constructor
  · intro recurs
    cases ends : r.chainEnd [] name with
    | none => rfl
    | some last =>
        obtain ⟨leads, unwrapped⟩ := chain_of_chainEnd [] name ends
        exact absurd recurs (not_recurs leads unwrapped)
  · intro circle
    obtain ⟨kind, leads, before⟩ := chain_of_circle [] name circle
    obtain ⟨i, less, earlier⟩ := before.resolve_left List.not_mem_nil
    exact ⟨i, _, kind, less, earlier, leads⟩

/-! ## What the types of a chain stand for -/

/-- A type stands for nothing if its chain of wrappers comes to a type twice, and for what the last
type in the chain stands for otherwise.  Either takes at most as many links as there are entries. -/
theorem run_resolve_chain (files : Files) (r : Registry) {name : String} (named : name ≠ "") :
    r.chainLength [] name ≤ r.entries.length ∧
      (r.Recurs name →
        (∃ i < r.chainLength [] name, r.chain name i = r.chain name (r.chainLength [] name)) ∧
          (resolve files name).run r = (none, r)) ∧
      (¬ r.Recurs name →
        ∃ last, r.chain name (r.chainLength [] name) = some last ∧ r.wrapper? last = none ∧
          (resolve files name).run r = (resolve files last).run r) := by
  refine ⟨?_, fun recurs => ?_, fun single => ?_⟩
  · have all : r.unvisited [] = r.entries := List.filter_eq_self.2 fun _ _ => by simp
    exact all ▸ r.chainLength_le [] name
  · have circle := recurs_iff.1 recurs
    obtain ⟨kind, leads, before⟩ := chain_of_circle [] name circle
    obtain ⟨i, less, earlier⟩ := before.resolve_left List.not_mem_nil
    exact ⟨⟨i, less, earlier.trans leads.symm⟩, run_resolve_none (.inr circle)⟩
  · rw [recurs_iff] at single
    obtain ⟨last, ends⟩ := Option.ne_none_iff_exists'.1 single
    obtain ⟨leads, unwrapped⟩ := chain_of_chainEnd [] name ends
    refine ⟨last, leads, unwrapped, ?_⟩
    have itself : r.chainEnd [] last = some last := by
      rcases r.follows [] last with ⟨known, -, -⟩ | ⟨-, -, result, -⟩ | ⟨_, -, found, -, -⟩
      · cases known
      · exact result
      · rw [unwrapped] at found
        cases found
    rw [run_resolve_some named ends, run_resolve_some (ne_empty_of_chain named leads) itself]

/-- A chain that runs into a circle, through types with other meanings, and one with an end. -/
theorem run_resolve_chain_lasso :
    let wrapped (key wrapper : String) : String × RegistryEntry :=
      (key, { key, wrapperRequired := true, wrapperComponent := some wrapper })
    let r : Registry := {
      entries := [wrapped "a" "b", wrapped "b" "c", wrapped "c" "b", wrapped "d" "e"]
      eager := [("b", .element "b" .ui), ("d", .element "d" .ui), ("e", .element "p" .ui)]
      icons := ["a", "c", "d"] }
    (r.Recurs "a" ∧ (resolve {} "a").run r = (none, r)) ∧
      ¬ r.Recurs "d" ∧ ∃ last, r.wrapper? last = none ∧
        (resolve {} "d").run r = (resolve {} last).run r := by
  intro wrapped r
  have circle : r.Recurs "a" := ⟨1, 3, "b", by decide, by decide, by decide⟩
  have leads : r.chain "d" 1 = some "e" := by decide
  have ending : ¬ r.Recurs "d" := not_recurs leads (by decide)
  obtain ⟨last, -, unwrapped, same⟩ := (run_resolve_chain {} r (by decide)).2.2 ending
  exact ⟨⟨circle, ((run_resolve_chain {} r (by decide)).2.1 circle).2⟩, ending, last, unwrapped,
    same⟩

end UiDoc.Registry
