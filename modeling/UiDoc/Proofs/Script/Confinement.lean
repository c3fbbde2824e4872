import UiDoc.Proofs.Journal
import UiDoc.Proofs.Scope
import UiDoc.Proofs.Script.Refinement

/-!
# What a script can see

A script sees of its scope no more than what the names in it stand for.  A name that no part of the
script introduces has to be known before the script is run.  A name that some part introduces may be
unknown elsewhere, but then what the script gives does not depend on it.
-/

namespace UiDoc

namespace Scope

variable {scope left right : Scope} {name : String}

/-- Two scopes are the same as far as a name is concerned: its value at the root, the layer that it
selects, and the whole root if the name is `data`. -/
structure AgreesOn (left right : Scope) (name : String) : Prop where
  root : left.root? name = right.root? name
  state : name = "state" → left.state = right.state
  bindings : name = "bindings" → left.bindings = right.bindings
  merged : name = "data" → left.merged = right.merged

theorem AgreesOn.symm (agree : left.AgreesOn right name) : right.AgreesOn left name where
  root := agree.root.symm
  state := fun same => (agree.state same).symm
  bindings := fun same => (agree.bindings same).symm
  merged := fun same => (agree.merged same).symm

theorem AgreesOn.named?_eq (agree : left.AgreesOn right name) :
    left.named? name = right.named? name := by
  by_cases state : name = "state"
  · subst state
    rw [named?_state, named?_state, agree.state rfl, agree.root]
  · by_cases bindings : name = "bindings"
    · subst bindings
      rw [named?_bindings, named?_bindings, agree.bindings rfl, agree.root]
    · rw [named?_of_ne state bindings, named?_of_ne state bindings, agree.root]

end Scope

namespace Script

variable {scope left right : Scope} {name : String}

/-- What a name stands for is the same in scopes that agree on it. -/
theorem scopeValue?_congr (agree : left.AgreesOn right name) :
    scopeValue? left name = scopeValue? right name := by
  unfold scopeValue?
  rw [agree.named?_eq]
  cases right.named? name with
  | some v => rfl
  | none =>
      by_cases data : name = "data"
      · rw [if_pos data, if_pos data, agree.merged data]
      · rw [if_neg data, if_neg data]

theorem SaysLess.of_agree (agree : left.AgreesOn right name) : SaysLess left right name :=
  fun _ found => scopeValue?_congr agree ▸ found

theorem Program.isKnown_congr (agree : left.AgreesOn right name) :
    isKnown left name = isKnown right name := by
  have state : (name == "state" && left.state.isSome) = (name == "state" && right.state.isSome) := by
    by_cases same : name = "state"
    · rw [agree.state same]
    · rw [beq_eq_false_iff_ne.2 same, Bool.false_and, Bool.false_and]
  have bindings : (name == "bindings" && left.bindings.isSome) =
      (name == "bindings" && right.bindings.isSome) := by
    by_cases same : name = "bindings"
    · rw [agree.bindings same]
    · rw [beq_eq_false_iff_ne.2 same, Bool.false_and, Bool.false_and]
  unfold isKnown Scope.hasRoot
  rw [agree.root, state, bindings]

/-! ## The names of a program -/

namespace Term

theorem names_ofName (n : String) : (ofName n).names ⊆ [n] := by
  unfold ofName
  split
  · exact List.nil_subset _
  · split
    · exact List.nil_subset _
    · exact List.Subset.refl _

/-- The names of two parts are among those of the parts that they are made from. -/
theorem append_subset_append {a b c d : List String} (first : a ⊆ b) (second : c ⊆ d) :
    a ++ c ⊆ b ++ d :=
  List.append_subset.2 ⟨List.subset_append_of_subset_left _ first,
    List.subset_append_of_subset_right _ second⟩

/-- Something is made of two parts if each of them is made. -/
theorem both_eq_some {α β γ : Type} {first : Option α} {second : Option β} {make : α → β → γ}
    {made : γ} :
    (do let a ← first; let b ← second; return make a b) = some made ↔
      ∃ a b, first = some a ∧ second = some b ∧ make a b = made := by
  simp [Option.bind_eq_some_iff]

/-- A call is that of a function of every script, or of a method of what stands in front. -/
theorem called_of_ofTree? {callee : Tree} {arguments : List (Element Tree)} {optional : Bool}
    {term : Term} (made : ofTree? (.call callee arguments optional) = some term) :
    ∃ terms, ofArguments? arguments = some terms ∧
      ((∃ function, term = .builtin function terms) ∨
        ∃ receiver n early method, ofTree? callee = some (.member receiver n early) ∧
          term = .method receiver method early terms) := by
  cases callee with
  | name n =>
      obtain ⟨function, terms, -, madeArguments, rfl⟩ := both_eq_some.1 made
      exact ⟨terms, madeArguments, .inl ⟨function, rfl⟩⟩
  | member target n early =>
      simp only [ofTree?] at made
      split at made
      · obtain ⟨function, terms, -, madeArguments, rfl⟩ := both_eq_some.1 made
        exact ⟨terms, madeArguments, .inl ⟨function, rfl⟩⟩
      · obtain ⟨method, -, made⟩ := Option.bind_eq_some_iff.1 made
        obtain ⟨receiver, terms, madeReceiver, madeArguments, rfl⟩ := both_eq_some.1 made
        exact ⟨terms, madeArguments, .inr ⟨receiver, n, early, method,
          Option.map_eq_some_iff.2 ⟨receiver, madeReceiver, rfl⟩, rfl⟩⟩
  | _ => cases made

mutual

/-- A term names nothing but what the script uses. -/
theorem names_ofTree? : (tree : Tree) → ∀ term, ofTree? tree = some term →
    term.names ⊆ tree.mentions.used
  | .number x, _, rfl => List.nil_subset _
  | .text s, _, rfl => List.nil_subset _
  | .truth b, _, rfl => List.nil_subset _
  | .null, _, rfl => List.nil_subset _
  | .nothing, _, rfl => List.nil_subset _
  | .name n, _, rfl => names_ofName n
  | .template texts parts, _, made => by
      obtain ⟨terms, madeParts, rfl⟩ := Option.map_eq_some_iff.1 made
      exact names_ofTrees? parts terms madeParts
  | .paren inner, term, made => names_ofTree? inner term made
  | .array items _, _, made => by
      obtain ⟨terms, madeItems, rfl⟩ := Option.map_eq_some_iff.1 made
      exact names_ofItems? items terms madeItems
  | .object entries _, _, made => by
      obtain ⟨terms, madeEntries, rfl⟩ := Option.map_eq_some_iff.1 made
      exact names_ofEntries? entries terms madeEntries
  | .member target n optional, _, made => by
      obtain ⟨term, madeTarget, rfl⟩ := Option.map_eq_some_iff.1 made
      exact names_ofTree? target term madeTarget
  | .index target key optional, _, made => by
      obtain ⟨_, _, madeTarget, madeKey, rfl⟩ := both_eq_some.1 made
      exact append_subset_append (names_ofTree? target _ madeTarget) (names_ofTree? key _ madeKey)
  | .call callee arguments optional, _, made => by
      obtain ⟨terms, madeArguments, ⟨_, rfl⟩ | ⟨_, _, _, _, madeCallee, rfl⟩⟩ :=
        called_of_ofTree? made
      · exact List.subset_append_of_subset_right _
          (names_ofArguments? arguments terms madeArguments)
      · exact append_subset_append (names_ofTree? callee (.member ..) madeCallee)
          (names_ofArguments? arguments terms madeArguments)
  | .unary op operand, _, made => by
      obtain ⟨term, madeOperand, rfl⟩ := Option.map_eq_some_iff.1 made
      exact names_ofTree? operand term madeOperand
  | .binary op left right, _, made => by
      obtain ⟨_, _, madeLeft, madeRight, rfl⟩ := both_eq_some.1 made
      exact append_subset_append (names_ofTree? left _ madeLeft) (names_ofTree? right _ madeRight)
  | .logical op left right, _, made => by
      obtain ⟨_, _, madeLeft, madeRight, rfl⟩ := both_eq_some.1 made
      exact append_subset_append (names_ofTree? left _ madeLeft) (names_ofTree? right _ madeRight)
  | .conditional test yes no, _, made => by
      obtain ⟨_, madeTest, made⟩ := Option.bind_eq_some_iff.1 made
      obtain ⟨_, _, madeYes, madeNo, rfl⟩ := both_eq_some.1 made
      exact append_subset_append (names_ofTree? test _ madeTest)
        (append_subset_append (names_ofTree? yes _ madeYes) (names_ofTree? no _ madeNo))
  | .arrow parameters head body, _, made => by
      obtain ⟨term, madeBody, rfl⟩ := Option.map_eq_some_iff.1 made
      exact List.subset_append_of_subset_right _ (names_ofTree? body term madeBody)
termination_by structural tree => tree

theorem names_ofTrees? : (trees : List Tree) → ∀ terms, ofTrees? trees = some terms →
    namesOfAll terms ⊆ (Tree.mentionsOfAll trees).used
  | [], _, rfl => List.nil_subset _
  | tree :: trees, _, made => by
      obtain ⟨_, _, madeTree, madeTrees, rfl⟩ := both_eq_some.1 made
      exact append_subset_append (names_ofTree? tree _ madeTree) (names_ofTrees? trees _ madeTrees)
termination_by structural trees => trees

theorem names_ofArguments? : (arguments : List (Element Tree)) → ∀ terms,
    ofArguments? arguments = some terms →
    namesOfAll terms ⊆ (Tree.mentionsOfItems arguments).used
  | [], _, rfl => List.nil_subset _
  | .item tree :: rest, _, made => by
      obtain ⟨_, _, madeTree, madeRest, rfl⟩ := both_eq_some.1 made
      exact append_subset_append (names_ofTree? tree _ madeTree)
        (names_ofArguments? rest _ madeRest)
termination_by structural arguments => arguments

theorem names_ofItems? : (items : List (Element Tree)) → ∀ terms, ofItems? items = some terms →
    namesOfItems terms ⊆ (Tree.mentionsOfItems items).used
  | [], _, rfl => List.nil_subset _
  | .item tree :: rest, _, made | .spread tree :: rest, _, made => by
      obtain ⟨_, _, madeTree, madeRest, rfl⟩ := both_eq_some.1 made
      exact append_subset_append (names_ofTree? tree _ madeTree) (names_ofItems? rest _ madeRest)
termination_by structural items => items

theorem names_ofEntries? : (entries : List (Entry Tree)) → ∀ terms,
    ofEntries? entries = some terms →
    namesOfEntries terms ⊆ (Tree.mentionsOfEntries entries).used
  | [], _, rfl => List.nil_subset _
  | .field n tree :: rest, _, made => by
      obtain ⟨_, _, madeTree, madeRest, rfl⟩ := both_eq_some.1 made
      exact append_subset_append (names_ofTree? tree _ madeTree) (names_ofEntries? rest _ madeRest)
  | .short n :: rest, _, made => by
      obtain ⟨terms, madeRest, rfl⟩ := Option.map_eq_some_iff.1 made
      exact append_subset_append (names_ofName n) (names_ofEntries? rest _ madeRest)
  | .spread tree :: rest, _, made => by
      obtain ⟨_, _, madeTree, madeRest, rfl⟩ := both_eq_some.1 made
      exact append_subset_append (names_ofTree? tree _ madeTree) (names_ofEntries? rest _ madeRest)
termination_by structural entries => entries

end

end Term

/-! ## Programs -/

variable {source : String} {args : List Value}

/-- A program that is compiled from a script names nothing but what the script uses. -/
theorem Program.of_compile? {program : Program} (compiled : compile? source = some program) :
    ∃ tree, Tree.parse? source = some tree ∧ program.root.names ⊆ tree.mentions.used ∧
      program.free = tree.free := by
  obtain ⟨tree, parsed, made⟩ := Option.bind_eq_some_iff.1 compiled
  obtain ⟨root, madeRoot, done⟩ := Option.bind_eq_some_iff.1 made
  cases done
  exact ⟨tree, parsed, Term.names_ofTree? tree root madeRoot, rfl⟩

/-- The free names of a script are used in it, are introduced nowhere, and mean nothing of their
own. -/
theorem Tree.mem_free {tree : Tree} :
    name ∈ tree.free ↔
      name ∈ tree.mentions.used ∧ name ∉ tree.mentions.bound ∧ name ∉ ownNames := by
  simp [free]

/-- A program gives a value if the names that it needs are known and its evaluation ends well. -/
theorem Program.run?_eq_some {program : Program} {v : Value} :
    program.run? scope args = some v ↔
      (∀ name ∈ program.free, isKnown scope name = true) ∧
        ∃ after, (body scope args program.root).run.run {} = (.ok v, after) := by
  unfold run?
  rw [← List.all_eq_true]
  by_cases known : program.free.all (isKnown scope) = true
  · rw [if_pos known]
    obtain ⟨fault | w, after⟩ := (body scope args program.root).run.run {}
    · exact ⟨nofun, fun ⟨_, _, same⟩ => nomatch same⟩
    · refine ⟨fun same => ⟨known, after, ?_⟩, fun ⟨_, _, same⟩ => ?_⟩
      · cases same
        rfl
      · cases same
        rfl
  · rw [if_neg known]
    exact ⟨nofun, fun ⟨knows, _⟩ => absurd knows known⟩

/-- What a script gives it gives in every scope that knows the names which it needs and says more
about those which it uses. -/
theorem Cache.evaluate_mono {cache : Cache} (faithful : cache.Faithful)
    (known : ∀ tree, Tree.parse? source = some tree → ∀ name ∈ tree.free,
      Program.isKnown left name = true → Program.isKnown right name = true)
    (less : ∀ tree, Tree.parse? source = some tree → ∀ name ∈ tree.mentions.used,
      SaysLess left right name)
    {v : Value} (gives : (cache.evaluate source left args).1 = some v) :
    (cache.evaluate source right args).1 = some v := by
  rw [(faithful.evaluate source left args).1] at gives
  rw [(faithful.evaluate source right args).1]
  obtain ⟨program, compiled, ran⟩ := Option.bind_eq_some_iff.1 gives
  obtain ⟨tree, parsed, named, needed⟩ := Program.of_compile? compiled
  obtain ⟨knows, after, outcome⟩ := Program.run?_eq_some.1 ran
  have lessNamed (name : String) (member : name ∈ program.root.names) : SaysLess left right name :=
    less tree parsed name (named member)
  obtain ⟨_, same, rfl⟩ := refines_body program.root lessNamed args {} v after outcome
  refine Option.bind_eq_some_iff.2 ⟨program, compiled, Program.run?_eq_some.2 ⟨?_, after, same⟩⟩
  intro name member
  exact known tree parsed name (needed ▸ member) (knows name member)

/-- A script sees nothing of a scope but what the names that it uses stand for: in scopes that agree
on these it gives the same, or is rejected in both. -/
theorem Cache.evaluate_confined {cache : Cache} (faithful : cache.Faithful)
    (agree : ∀ tree, Tree.parse? source = some tree → ∀ name ∈ tree.mentions.used,
      left.AgreesOn right name) (args : List Value) :
    (cache.evaluate source left args).1 = (cache.evaluate source right args).1 := by
  have through {left right : Scope} {v : Value}
      (agree : ∀ tree, Tree.parse? source = some tree → ∀ name ∈ tree.mentions.used,
        left.AgreesOn right name)
      (gives : (cache.evaluate source left args).1 = some v) :
      (cache.evaluate source right args).1 = some v := by
    refine cache.evaluate_mono faithful ?_ ?_ gives
    · intro tree parsed name member known
      rwa [← Program.isKnown_congr (agree tree parsed name (Tree.mem_free.1 member).1)]
    · exact fun tree parsed name member => .of_agree (agree tree parsed name member)
  exact Option.ext fun v => ⟨through agree, through fun tree parsed name member =>
    (agree tree parsed name member).symm⟩

/-- Two scopes that have only the rows and the mark in common give a script about these the same
texts. -/
theorem Cache.evaluate_confined_rows :
    let source := "rows.map(row => row.title + state.mark)"
    let rows : Json := .arr [.obj [("title", .str "Ada")], .obj [("title", .str "Bo")]]
    let mark : Json := .obj [("mark", .str "!")]
    let left : Scope :=
      { data := .obj [("rows", rows), ("secret", .bool true)], state := some mark }
    let right : Scope :=
      { data := .obj [("rows", .null)], context := [("rows", rows), ("user", .null)],
        state := some mark, bindings := some mark }
    (∃ v, (({} : Cache).evaluate source left []).1 = some (some v) ∧
        v.print = "[\"Ada!\",\"Bo!\"]") ∧
      (({} : Cache).evaluate source left []).1 = (({} : Cache).evaluate source right []).1 := by
  intro source rows mark left right
  have names : (Tree.parse? source).map (·.mentions.used) = some ["rows", "row", "state"] := by
    decide +kernel
  have shown : (({} : Cache).evaluate source left []).1.map (·.map Json.print) =
      some (some "[\"Ada!\",\"Bo!\"]") := by decide +kernel
  have agree (tree : Tree) (parsed : Tree.parse? source = some tree) :
      ∀ name ∈ tree.mentions.used, left.AgreesOn right name := by
    have used : tree.mentions.used = ["rows", "row", "state"] := by
      rw [parsed] at names
      exact Option.some.inj names
    rw [used]
    have rowsAgree : left.AgreesOn right "rows" := ⟨rfl, nofun, nofun, nofun⟩
    have rowAgree : left.AgreesOn right "row" := ⟨rfl, nofun, nofun, nofun⟩
    have stateAgree : left.AgreesOn right "state" := ⟨rfl, fun _ => rfl, nofun, nofun⟩
    simpa using ⟨rowsAgree, rowAgree, stateAgree⟩
  obtain ⟨result, gives, printed⟩ := Option.map_eq_some_iff.1 shown
  obtain ⟨v, rfl, text⟩ := Option.map_eq_some_iff.1 printed
  exact ⟨⟨v, gives, text⟩, Cache.evaluate_confined Cache.faithful_empty agree []⟩

/-! ## Unknown names -/

/-- What is not known has no value. -/
theorem scopeValue?_of_unknown (unknown : Program.isKnown scope name = false) :
    scopeValue? scope name = none := by
  simp only [Program.isKnown, Bool.or_eq_false_iff] at unknown
  obtain ⟨⟨⟨root, data⟩, state⟩, bindings⟩ := unknown
  have root : scope.root? name = none := by simpa [Scope.hasRoot] using root
  have named : scope.named? name = none := by
    by_cases isState : name = "state"
    · subst isState
      rw [Scope.named?_state, root, Option.or_none]
      simpa using state
    · by_cases isBindings : name = "bindings"
      · subst isBindings
        rw [Scope.named?_bindings, root, Option.or_none]
        simpa using bindings
      · rw [Scope.named?_of_ne isState isBindings, root]
  rw [scopeValue?, named]
  exact if_neg (beq_eq_false_iff_ne.1 data)

/-- A name that the scope does not know makes it reject every script that uses the name and
introduces it nowhere, whatever an evaluation would reach.  If some part of the script introduces
the name as well, the script may be run, but what it gives does not depend on the name. -/
theorem Cache.evaluate_unknown {cache : Cache} (faithful : cache.Faithful) {tree : Tree}
    (parsed : Tree.parse? source = some tree) (used : name ∈ tree.mentions.used)
    (foreign : name ∉ ownNames) (unknown : Program.isKnown scope name = false)
    (args : List Value) :
    (name ∉ tree.mentions.bound → (cache.evaluate source scope args).1 = none) ∧
      ∀ other : Scope, (∀ n ∈ tree.mentions.used, n ≠ name → scope.AgreesOn other n) →
        ∀ v, (cache.evaluate source scope args).1 = some v →
          (cache.evaluate source other args).1 = some v := by
  refine ⟨fun unbound => ?_, fun other agree v gives => ?_⟩
  · cases gives : (cache.evaluate source scope args).1 with
    | none => rfl
    | some v =>
        rw [(faithful.evaluate source scope args).1] at gives
        obtain ⟨program, compiled, ran⟩ := Option.bind_eq_some_iff.1 gives
        obtain ⟨_, parsedAlike, -, needed⟩ := Program.of_compile? compiled
        cases parsed.symm.trans parsedAlike
        have needs : name ∈ program.free := needed ▸ Tree.mem_free.2 ⟨used, unbound, foreign⟩
        have known := (Program.run?_eq_some.1 ran).1 name needs
        exact absurd known (by simp [unknown])
  · refine cache.evaluate_mono faithful ?_ ?_ gives
    · intro _ parsedAlike n member known
      cases parsed.symm.trans parsedAlike
      have differs : n ≠ name := fun same => by simp [same, unknown] at known
      rwa [← Program.isKnown_congr (agree n (Tree.mem_free.1 member).1 differs)]
    · intro _ parsedAlike n member
      cases parsed.symm.trans parsedAlike
      by_cases same : n = name
      · intro v found
        rw [same, scopeValue?_of_unknown unknown] at found
        cases found
      · exact .of_agree (agree n member same)

/-- An unknown name is not passed over behind what decides without it. -/
theorem Cache.evaluate_unknown_alternative :
    let scope : Scope := { data := .obj [] }
    (∃ tree, Tree.parse? "true || secret" = some tree ∧ "secret" ∈ tree.mentions.used ∧
        "secret" ∉ tree.mentions.bound) ∧
      "secret" ∉ ownNames ∧ Program.isKnown scope "secret" = false ∧
      (({} : Cache).evaluate "true || secret" scope []).1 = none := by
  intro scope
  have names : (Tree.parse? "true || secret").map Tree.mentions = some { used := ["secret"] } := by
    decide +kernel
  have foreign : "secret" ∉ ownNames := by decide
  have unknown : Program.isKnown scope "secret" = false := by decide
  obtain ⟨tree, parsed, mentions⟩ := Option.map_eq_some_iff.1 names
  have used : "secret" ∈ tree.mentions.used := by rw [mentions]; decide
  have unbound : "secret" ∉ tree.mentions.bound := by rw [mentions]; decide
  exact ⟨⟨tree, parsed, used, unbound⟩, foreign, unknown,
    (Cache.evaluate_unknown Cache.faithful_empty parsed used foreign unknown []).1 unbound⟩

namespace Tree

mutual

/-- The names that are used somewhere outside of all functions that have them as parameters.  The
default values of parameters are not known as trees: a name that these use counts unless some part
of the parameters introduces it. -/
def openNames : Tree → List String
  | .number _ | .text _ | .truth _ | .null | .nothing | .hole => []
  | .name n => [n]
  | .template _ parts => openNamesOfAll parts
  | .paren inner => openNames inner
  | .array items _ => openNamesOfItems items
  | .object entries _ => openNamesOfEntries entries
  | .member target _ _ => openNames target
  | .index target key _ => openNames target ++ openNames key
  | .call callee arguments _ => openNames callee ++ openNamesOfItems arguments
  | .unary _ operand => openNames operand
  | .binary _ left right => openNames left ++ openNames right
  | .logical _ left right => openNames left ++ openNames right
  | .conditional test yes no => openNames test ++ (openNames yes ++ openNames no)
  | .arrow parameters head body =>
      head.used.filter (· ∉ head.bound) ++ (openNames body).filter (· ∉ parameters)
  | .assign _ written value => written.used ++ openNames value
  | .hidden inner _ | .other inner => inner.used.filter (· ∉ inner.bound)
termination_by structural t => t

/-- The open names in trees. -/
def openNamesOfAll : List Tree → List String
  | [] => []
  | tree :: trees => openNames tree ++ openNamesOfAll trees
termination_by structural t => t

/-- The open names in the parts of an array. -/
def openNamesOfItems : List (Element Tree) → List String
  | [] => []
  | .item tree :: rest | .spread tree :: rest => openNames tree ++ openNamesOfItems rest
termination_by structural t => t

/-- The open names in the parts of an object. -/
def openNamesOfEntries : List (Entry Tree) → List String
  | [] => []
  | .field _ value :: rest | .spread value :: rest => openNames value ++ openNamesOfEntries rest
  | .short n :: rest => n :: openNamesOfEntries rest
  | .shortDefault n value :: rest => n :: (openNames value ++ openNamesOfEntries rest)
  | .computed key value :: rest =>
      openNames key ++ (openNames value ++ openNamesOfEntries rest)
  | .method inner :: rest => inner.used.filter (· ∉ inner.bound) ++ openNamesOfEntries rest
termination_by structural t => t

end

end Tree

/-- A name that a function introduces is not missed outside of it: the last `x` here is that of no
function, and the scope does not know it, but the script is accepted. -/
theorem Cache.evaluate_unknown_elsewhere :
    let source := "[1].some(x => x) || x"
    let scope : Scope := { data := .obj [] }
    (∃ tree, Tree.parse? source = some tree ∧ "x" ∈ tree.openNames) ∧
      "x" ∉ ownNames ∧ Program.isKnown scope "x" = false ∧
      (({} : Cache).evaluate source scope []).1.isSome = true := by
  have names : (Tree.parse? "[1].some(x => x) || x").map Tree.openNames = some ["x"] := by
    decide +kernel
  refine ⟨?_, by decide, by decide, by decide +kernel⟩
  obtain ⟨tree, parsed, free⟩ := Option.map_eq_some_iff.1 names
  exact ⟨tree, parsed, free ▸ List.mem_cons_self ..⟩

end Script

end UiDoc
