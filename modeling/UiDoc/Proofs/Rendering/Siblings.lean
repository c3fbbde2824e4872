import UiDoc.Interpreter
import UiDoc.Proofs.Registry.History
import UiDoc.Proofs.Rendering.Untripped

/-!
# Siblings

The children of a component share the guard, the journal and the registry.  Still, as long as no
limit is tripped, each of them is rendered as if it were alone.
-/

namespace UiDoc

/-! ## Sound passes -/

namespace Interpreter

/-- An interpreter that renders, ticks and registrations lead to. -/
inductive Reached (files : Files) : Interpreter → Prop where
  | made {r : Registry} (config : Config) (now : Nat) : r.Reached files →
      Reached files (ofConfig config r now)
  | ticked {i : Interpreter} (now : Nat) : Reached files i → Reached files (i.tick now)
  | registered {i : Interpreter} (history : List Registry.Operation) : Reached files i →
      Reached files { i with registry := i.registry.after files history }
  | rendered {i : Interpreter} (now : Nat) (request : Request) : Reached files i →
      Reached files (i.render files now request).2

/-- The memo and the scripts of the interpreter hold what they should. -/
structure Sound (files : Files) (i : Interpreter) : Prop where
  coherent : Registry.Coherent files i.registry
  scripts : i.scripts.Faithful

variable {files : Files} {i : Interpreter}

/-- A pass begins with what the interpreter has kept. -/
theorem Sound.beginPass (sound : i.Sound files) (now : Nat) : (i.beginPass now).Sound files :=
  ⟨sound.coherent, sound.scripts⟩

theorem Sound.render (sound : i.Sound files) (now : Nat) (request : Request) :
    (i.render files now request).2.Sound files := by
  let setting : Setting := ⟨files, i.config.devMode⟩
  have follows := (Rendering.follows_congruence setting.files).upTo (i.guard.maxDepth + 1) {}
    request.root request.scope request.key
  have after := (follows.leads _ (sound.beginPass now)).sound
  exact ⟨after.coherent, after.scripts⟩

theorem Reached.sound (reached : i.Reached files) : i.Sound files := by
  induction reached with
  | made config now registry => exact ⟨registry.coherent, Script.Cache.faithful_empty⟩
  | ticked now _ ih => exact ⟨ih.coherent, ih.scripts⟩
  | registered history _ ih =>
      exact ⟨(Registry.after_run history (.refl files _) ih.coherent).2, ih.scripts⟩
  | rendered now request _ ih => exact ih.render now request

end Interpreter

/-! ## Lists of children -/

/-- The value at a place depends on the element at this place alone. -/
theorem List.mapIdx_replace {α β : Type} (f : Nat → α → β) (front back : List α) (x y : α) :
    (front ++ y :: back).mapIdx f =
      ((front ++ x :: back).mapIdx f).set front.length (f front.length y) := by
  simp [List.mapIdx_append, List.mapIdx_cons]

theorem List.exists_of_set_map {α β : Type} {f : α → β} {xs ys : List α} {n : Nat} {y : β}
    (within : n < xs.length) (injective : ∀ a b, f a = f b → a = b)
    (same : (xs.map f).set n y = ys.map f) : ∃ x, y = f x ∧ ys = xs.set n x := by
  have place : ((xs.map f).set n y)[n]? = some y := by simp [within]
  rw [same, List.getElem?_map, Option.map_eq_some_iff] at place
  rcases place with ⟨x, -, rfl⟩
  rw [← List.map_set] at same
  exact ⟨x, rfl, ((List.map_inj_right fun _ _ => injective _ _).1 same).symm⟩

namespace Render

open Rendering (Follows run_bind_ok run_bind_error)

/-- What a child produces when it is rendered alone from a pass. -/
def alone (setting : Setting) (levels : Nat) (scope : Scope) (parent : String) (repeated : Bool)
    (site : Site) (p : Pass) (index : Nat) (c : Component) : Except Halt (List Node) :=
  ((upTo setting levels c scope (c.childKey parent repeated index) site).run.run p).1

variable {setting : Setting} {levels : Nat} {scope : Scope} {parent : String} {repeated : Bool}
  {site : Site} {p q : Pass}

/-- Children that are rendered one after the other from one pass produce what each of them produces
alone from a pass that fits. -/
theorem components_eq_parts {index : Nat} {list : List Component} (fits : p.Fits setting.files q)
    (untripped : ¬ ((components (upTo setting levels) scope parent repeated site index
      list).run.run p).2.Tripped) :
    ∃ parts : List (List Node),
      ((components (upTo setting levels) scope parent repeated site index list).run.run p).1 =
        .ok parts.flatten ∧
      list.mapIdx (fun i c => alone setting levels scope parent repeated site q (index + i) c) =
        parts.map .ok := by
  induction list generalizing index p with
  | nil => exact ⟨[], rfl, rfl⟩
  | cons c rest ih =>
      have rel := Rendering.follows_congruence setting.files
      have first := rel.upTo levels site c scope (c.childKey parent repeated index)
      have later := rel.components (rel.upTo levels site) scope parent repeated (index + 1) rest
      simp only [components] at untripped ⊢
      have early := first.untripped_bind
        (fun _ => Rendering.follows_bind later fun _ => Rendering.follows_pure _) fits.sound
        untripped
      obtain ⟨front, next, run, fitsNext, isAlone, -⟩ := first.run fits early
      rw [run_bind_ok run] at untripped ⊢
      have late := later.untripped_bind (fun _ => Rendering.follows_pure _) fitsNext.sound untripped
      obtain ⟨parts, back, areAlone⟩ := ih fitsNext late
      obtain ⟨nodes, last, runLater, -⟩ := later.run fitsNext late
      rw [runLater] at back
      cases back
      refine ⟨front :: parts, by rw [run_bind_ok runLater]; rfl, ?_⟩
      simp only [List.mapIdx_cons, List.map_cons, Nat.add_zero]
      rw [← areAlone]
      have shifted : ∀ i, index + 1 + i = index + (i + 1) := fun i => by omega
      simp only [shifted]
      exact congrArg (· :: _) isAlone

theorem childList_eq {below : Renderer} {c : Component}
    (nodes : ∀ text, c.children ≠ some (.text text)) :
    childList below c scope parent repeated site =
      components below scope parent repeated site 0 c.childNodes := by
  unfold childList Component.childNodes
  cases children : c.children with
  | none => rfl
  | some content =>
      cases content with
      | text text => exact absurd children (nodes text)
      | nodes list => rfl
      | node one => rfl

/-- Siblings do not influence each other: where no limit is tripped, children produce what each of
them produces alone, and a child that is replaced leaves the nodes of all others as they were. -/
theorem siblings_independent {c : Component} (fits : p.Fits setting.files q)
    (nodes : ∀ text, c.children ≠ some (.text text))
    (untripped : ¬ ((childList (upTo setting levels) c scope parent repeated
      site).run.run p).2.Tripped) :
    ∃ parts : List (List Node),
      ((childList (upTo setting levels) c scope parent repeated site).run.run p).1 =
        .ok parts.flatten ∧
      c.childNodes.mapIdx (alone setting levels scope parent repeated site q) = parts.map .ok ∧
      ∀ front x back y, c.childNodes = front ++ x :: back →
        let replaced := { c with children := some (.nodes (front ++ y :: back)) }
        ¬ ((childList (upTo setting levels) replaced scope parent repeated
          site).run.run p).2.Tripped →
        ∃ other, alone setting levels scope parent repeated site q front.length y = .ok other ∧
          ((childList (upTo setting levels) replaced scope parent repeated site).run.run p).1 =
            .ok (parts.set front.length other).flatten := by
  rw [childList_eq nodes] at untripped ⊢
  obtain ⟨parts, produced, areAlone⟩ := components_eq_parts fits untripped
  simp only [Nat.zero_add] at areAlone
  refine ⟨parts, produced, areAlone, ?_⟩
  intro front x back y given replaced untrippedOther
  have form : childList (upTo setting levels) replaced scope parent repeated site =
      components (upTo setting levels) scope parent repeated site 0 (front ++ y :: back) := rfl
  rw [form] at untrippedOther ⊢
  obtain ⟨others, producedOther, othersAlone⟩ := components_eq_parts fits untrippedOther
  simp only [Nat.zero_add] at othersAlone
  rw [List.mapIdx_replace _ front back x y, ← given] at othersAlone
  rw [areAlone] at othersAlone
  have within : front.length < parts.length := by
    have count := congrArg List.length areAlone
    simp only [List.length_mapIdx, List.length_map, given, List.length_append,
      List.length_cons] at count
    omega
  obtain ⟨other, isAlone, rfl⟩ :=
    List.exists_of_set_map within (fun _ _ => Except.ok.inj) othersAlone
  exact ⟨other, isAlone, producedOther⟩

/-- An element and a loop, which is replaced by another element. -/
theorem siblings_independent_pair :
    let p := (Interpreter.ofConfig {} .builtin 0).beginPass 0
    let scope : Scope := { data := .obj [("items", .arr [.null, .int 1])] }
    let first : Component := { id := "a", kind := "div" }
    let second : Component := {
      loop := some { source := .path "items" }, children := some (.text "\x7b\x7bitem\x7d\x7d") }
    let third : Component := { kind := "span" }
    let produce (c : Component) :=
      ((childList (upTo ⟨{}, false⟩ 2) c scope "root" false {}).run.run p).1
    ∃ one two three, alone ⟨{}, false⟩ 2 scope "root" false {} p 0 first = .ok one ∧
      produce { children := some (.nodes [first, second]) } = .ok [one, two].flatten ∧
      produce { children := some (.nodes [first, third]) } = .ok [one, three].flatten := by
  intro p scope first second third produce
  have clean {log : Diagnostics} (nothing : log.warned = []) : ¬ log.Tripped := by
    rintro ⟨kind, site, -, known⟩
    simp [nothing] at known
  have sound : p.Sound {} :=
    (Interpreter.Reached.made {} 0 ⟨.builtin, [], .builtin, rfl⟩).sound.beginPass 0
  have constant : p.registry.Constant := fun path m found => nomatch found
  have fits : p.Fits {} p := .refl sound constant rfl (clean rfl)
  let c : Component := { children := some (.nodes [first, second]) }
  have untripped :
      ¬ ((childList (upTo ⟨{}, false⟩ 2) c scope "root" false {}).run.run p).2.Tripped :=
    clean (by decide +kernel)
  obtain ⟨parts, produced, areAlone, replace⟩ := siblings_independent fits (by simp [c]) untripped
  obtain ⟨three, -, producedOther⟩ :=
    replace [first] second [] third rfl (clean (by decide +kernel))
  match parts with
  | [one, two] =>
      simp only [c, Component.childNodes, Option.map_some, Content.components, Option.getD_some,
        List.mapIdx_cons, List.map_cons, List.cons.injEq] at areAlone
      exact ⟨one, two, three, areAlone.1, produced, producedOther⟩
  | [] | [_] | _ :: _ :: _ :: _ => simp [c, Component.childNodes, Content.components] at areAlone

end Render

end UiDoc
