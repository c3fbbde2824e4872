import UiDoc.Proofs.Text.Trim
import UiDoc.Template

/-!
# The placeholders of a template

A placeholder ends at closing braces, and reading goes on behind them as if the template started
there.  White space around a template changes nothing about its placeholders.  So the expression of
a template that is one placeholder is among the expressions of all its placeholders.
-/

namespace UiDoc

namespace Template

/-! ## White space behind a template -/

/-- White space behind which no braces close. -/
structure Spot.Idle (spot : Spot) : Prop where
  blank : Text.isBlank spot.char = true
  closes : spot.closes = false
  begins : spot.begins = false

variable {c : Char} {cs lead trail : List Char} {idle : List Spot}

theorem spots_cons (c : Char) (cs : List Char) :
    spots (c :: cs) = .before c (spots cs) :: spots cs := rfl

theorem not_blank_brace {c : Char} (blank : Text.isBlank c = true) : c ≠ '{' ∧ c ≠ '}' := by
  constructor <;> rintro rfl <;> exact absurd blank (by decide)

/-- A place is the same in front of a template and of nothing more than white space behind it. -/
theorem before_append (idles : ∀ spot ∈ idle, spot.Idle) (c : Char) (spots : List Spot) :
    Spot.before c (spots ++ idle) = Spot.before c spots := by
  cases spots with
  | cons spot rest => rfl
  | nil =>
      cases idle with
      | nil => rfl
      | cons spot rest =>
          obtain ⟨blank, closes, begins⟩ := idles spot (List.mem_cons_self ..)
          simp [Spot.before, closes, begins, (not_blank_brace blank).2]

theorem spots_idle (blank : ∀ c ∈ trail, Text.isBlank c) : ∀ spot ∈ spots trail, spot.Idle := by
  induction trail with
  | nil => exact nofun
  | cons c cs ih =>
      have idles := ih fun d member => blank d (List.mem_cons_of_mem c member)
      have same := before_append idles c []
      intro spot member
      rw [spots_cons, ← List.nil_append (spots cs), same] at member
      rcases List.mem_cons.1 member with rfl | later
      · exact ⟨blank c (List.mem_cons_self ..), rfl, by simp [Spot.before]⟩
      · exact idles spot later

theorem spots_append (blank : ∀ c ∈ trail, Text.isBlank c) (cs : List Char) :
    spots (cs ++ trail) = spots cs ++ spots trail := by
  induction cs with
  | nil => rfl
  | cons c cs ih =>
      rw [List.cons_append, spots_cons, ih, spots_cons, before_append (spots_idle blank)]
      rfl

theorem body_cons_cons (spot next : Spot) (rest : List Spot) :
    body (spot :: next :: rest) =
      if next.closes then ([spot.char], behindBraces (next :: rest))
      else (spot.char :: (body (next :: rest)).1, (body (next :: rest)).2) := rfl

theorem begins_cons (c d : Char) (cs : List Char) :
    (Spot.before c (spots (d :: cs))).begins = true ↔ c ≠ '\n' ∧
      ((Spot.before d (spots cs)).closes = true ∨ (Spot.before d (spots cs)).begins = true) := by
  simp [Spot.before.eq_def c, spots_cons]

/-! ## Closing braces -/

/-- Closing braces stand at the start of a text, perhaps behind white space. -/
def Closes (cs : List Char) : Prop :=
  (spots cs).head?.any Spot.closes = true

theorem closes_braces (rest : List Char) : Closes ('}' :: '}' :: rest) := by
  simp [Closes, spots_cons, Spot.before]

theorem closes_cons (c d : Char) (cs : List Char) :
    Closes (c :: d :: cs) ↔ (c = '}' ∧ d = '}') ∨ (Text.isBlank c = true ∧ Closes (d :: cs)) := by
  simp [Closes, spots_cons, Spot.before.eq_def c, Spot.before.eq_def d]

theorem not_closes_singleton (c : Char) : ¬Closes [c] := by
  simp [Closes, spots, Spot.before]

theorem exists_of_closes (closes : Closes cs) :
    ∃ blanks rest, cs = blanks ++ '}' :: '}' :: rest ∧ ∀ c ∈ blanks, Text.isBlank c := by
  induction cs with
  | nil => cases closes
  | cons c cs ih =>
      cases cs with
      | nil => exact absurd closes (not_closes_singleton c)
      | cons d cs =>
          rcases (closes_cons c d cs).1 closes with ⟨rfl, rfl⟩ | ⟨blank, later⟩
          · exact ⟨[], cs, rfl, nofun⟩
          · obtain ⟨blanks, rest, parts, allBlank⟩ := ih later
            exact ⟨c :: blanks, rest, congrArg (List.cons c) parts,
              List.forall_mem_cons.2 ⟨blank, allBlank⟩⟩

/-- The first closing braces are left out, with the white space in front of them. -/
theorem behindBraces_append {blanks : List Char} (blank : ∀ c ∈ blanks, Text.isBlank c)
    (rest : List Char) (more : List Spot) :
    behindBraces (spots (blanks ++ '}' :: '}' :: rest) ++ more) = spots rest ++ more := by
  induction blanks with
  | nil => rfl
  | cons c blanks ih =>
      obtain ⟨first, others⟩ := List.forall_mem_cons.1 blank
      rw [List.cons_append, spots_cons, List.cons_append, behindBraces,
        List.dropWhile_cons_of_pos (p := fun spot : Spot => Text.isBlank spot.char) first]
      exact ih others

theorem behindBraces_of_closes (closes : Closes cs) :
    ∃ front rest, cs = front ++ '}' :: '}' :: rest ∧
      ∀ more, behindBraces (spots cs ++ more) = spots rest ++ more := by
  obtain ⟨blanks, rest, rfl, blank⟩ := exists_of_closes closes
  exact ⟨blanks, rest, rfl, behindBraces_append blank rest⟩

/-! ## Expressions in front of closing braces -/

/-- An expression that ends does so at closing braces, whatever stands behind the text. -/
theorem body_of_begins (begins : (Spot.before c (spots cs)).begins = true) :
    ∃ text front rest, c :: cs = front ++ '}' :: '}' :: rest ∧
      ∀ more, body (spots (c :: cs) ++ more) = (text, spots rest ++ more) := by
  induction cs generalizing c with
  | nil => simp [Spot.before, spots] at begins
  | cons d cs ih =>
      by_cases closes : (Spot.before d (spots cs)).closes = true
      · have standing : Closes (d :: cs) := closes
        obtain ⟨front, rest, parts, behind⟩ := behindBraces_of_closes standing
        refine ⟨[c], c :: front, rest, congrArg (List.cons c) parts, fun more => ?_⟩
        rw [spots_cons c, spots_cons d, List.cons_append, List.cons_append, body_cons_cons,
          if_pos closes]
        exact congrArg (Prod.mk [c]) (behind more)
      · have later := ((begins_cons c d cs).1 begins).2.resolve_left closes
        obtain ⟨text, front, rest, parts, reads⟩ := ih later
        refine ⟨c :: text, c :: front, rest, congrArg (List.cons c) parts, fun more => ?_⟩
        rw [spots_cons c, spots_cons d, List.cons_append, List.cons_append, body_cons_cons,
          if_neg closes, ← List.cons_append, ← spots_cons d, reads more]
        rfl

theorem inner?_cons (spot : Spot) (rest : List Spot) :
    inner? (spot :: rest) =
      (if Text.isBlank spot.char then inner? rest else none).or
        (if spot.begins then some (body (spot :: rest)) else none) := by
  rw [inner?]
  split <;> rename_i found
  · rw [found, Option.some_or]
  · rw [found, Option.none_or]

theorem inner?_spots_cons (c : Char) (cs : List Char) (more : List Spot) :
    inner? (spots (c :: cs) ++ more) =
      (if Text.isBlank c then inner? (spots cs ++ more) else none).or
        (if (Spot.before c (spots cs)).begins then some (body (spots (c :: cs) ++ more))
          else none) := by
  rw [spots_cons, List.cons_append, inner?_cons]
  rfl

theorem inner?_spots (c : Char) (cs : List Char) :
    inner? (spots (c :: cs)) = (if Text.isBlank c then inner? (spots cs) else none).or
      (if (Spot.before c (spots cs)).begins then some (body (spots (c :: cs))) else none) := by
  rw [← List.append_nil (spots (c :: cs)), inner?_spots_cons, List.append_nil, List.append_nil]

theorem inner?_idle (idles : ∀ spot ∈ idle, spot.Idle) : inner? idle = none := by
  induction idle with
  | nil => rfl
  | cons spot rest ih =>
      simp only [List.mem_cons, forall_eq_or_imp] at idles
      simp [inner?_cons, ih idles.2, idles.1.begins]

/-- White space behind a template does not change the text of an expression. -/
theorem inner?_append (idles : ∀ spot ∈ idle, spot.Idle) (cs : List Char) :
    (inner? (spots cs ++ idle)).map Prod.fst = (inner? (spots cs)).map Prod.fst := by
  induction cs with
  | nil =>
      rw [show spots [] = [] from rfl, List.nil_append, inner?_idle idles]
      rfl
  | cons c cs ih =>
      rw [inner?_spots, inner?_spots_cons, Option.map_or, Option.map_or]
      congr 1
      · split
        · exact ih
        · rfl
      · split
        · rename_i begins
          obtain ⟨text, front, rest, -, reads⟩ := body_of_begins begins
          have ends := reads []
          rw [List.append_nil] at ends
          rw [reads idle, ends]
          rfl
        · rfl

/-- An expression ends at closing braces, whatever white space stands behind the text. -/
theorem inner?_eq_some {text : List Char} {after : List Spot}
    (found : inner? (spots cs) = some (text, after)) :
    ∃ front rest, cs = front ++ '}' :: '}' :: rest ∧ after = spots rest ∧
      ∀ idle : List Spot, (∀ spot ∈ idle, spot.Idle) →
        inner? (spots cs ++ idle) = some (text, spots rest ++ idle) := by
  induction cs with
  | nil => cases found
  | cons c cs ih =>
      rw [inner?_spots] at found
      rcases Option.or_eq_some_iff.1 found with later | ⟨nowhere, here⟩
      · obtain ⟨blank, later⟩ := Option.ite_none_right_eq_some.1 later
        obtain ⟨front, rest, parts, same, reads⟩ := ih later
        refine ⟨c :: front, rest, congrArg (List.cons c) parts, same, fun idle idles => ?_⟩
        rw [inner?_spots_cons, if_pos blank, reads idle idles, Option.some_or]
      · obtain ⟨begins, same⟩ := Option.ite_none_right_eq_some.1 here
        obtain ⟨read, front, rest, parts, reads⟩ := body_of_begins begins
        have ends := reads []
        rw [List.append_nil, List.append_nil, Option.some.inj same] at ends
        cases ends
        refine ⟨front, rest, parts, rfl, fun idle idles => ?_⟩
        -- The expression does not start later with the white space either.
        have stillNowhere :
            (if Text.isBlank c then inner? (spots cs ++ idle) else none) = none := by
          split
          · rename_i blank
            have before : inner? (spots cs) = none := (if_pos blank).symm.trans nowhere
            have kept := inner?_append idles cs
            rwa [before, Option.map_none, Option.map_eq_none_iff] at kept
          · rfl
        rw [inner?_spots_cons, stillNowhere, Option.none_or, if_pos begins, reads idle]

theorem placeholder?_eq_some {text : List Char} {after : List Spot}
    (found : placeholder? (spots cs) = some (text, after)) :
    ∃ inside rest, cs = '{' :: '{' :: (inside ++ '}' :: '}' :: rest) ∧ after = spots rest ∧
      ∀ idle : List Spot, (∀ spot ∈ idle, spot.Idle) →
        placeholder? (spots cs ++ idle) = some (text, spots rest ++ idle) := by
  match cs with
  | [] | [_] => simp [spots, placeholder?] at found
  | c :: d :: cs =>
      simp only [spots_cons, List.cons_append, placeholder?] at found ⊢
      split at found
      · rename_i opens
        obtain ⟨inside, rest, parts, same, reads⟩ := inner?_eq_some found
        refine ⟨inside, rest, ?_, same, fun idle idles => ?_⟩
        · rw [← parts, show c = '{' from opens.1, show d = '{' from opens.2]
        · rw [if_pos opens, reads idle idles]
      · cases found

/-- A placeholder in front of white space is one without it. -/
theorem placeholder?_of_append (idles : ∀ spot ∈ idle, spot.Idle) {text : List Char}
    (found : placeholder? (spots ('{' :: '{' :: cs) ++ idle) = some (text, idle)) :
    placeholder? (spots ('{' :: '{' :: cs)) = some (text, []) := by
  have reads (more : List Spot) :
      placeholder? (spots ('{' :: '{' :: cs) ++ more) = inner? (spots cs ++ more) := rfl
  have kept := inner?_append idles cs
  rw [← reads, found, Option.map_some, eq_comm, Option.map_eq_some_iff] at kept
  obtain ⟨⟨_, after⟩, alone, rfl⟩ := kept
  obtain ⟨inside, rest, -, rfl, further⟩ := inner?_eq_some alone
  have twice := further idle idles
  rw [← reads, found, Option.some.injEq, Prod.mk.injEq] at twice
  have nothing : spots rest = [] := List.self_eq_append_left.1 twice.2
  have same := reads []
  rw [List.append_nil, List.append_nil, alone, nothing] at same
  exact same

/-! ## The expressions of a template -/

theorem piecesOf_of_placeholder {spots after : List Spot} {text : List Char}
    (found : placeholder? spots = some (text, after)) :
    piecesOf spots = .hole (String.ofList text) :: piecesOf after := by
  cases spots with
  | nil => cases found
  | cons spot rest =>
      rw [piecesOf]
      split <;> rename_i other
      · cases found.symm.trans other
        rfl
      · cases found.symm.trans other

theorem piecesOf_of_none {spot : Spot} {rest : List Spot}
    (nowhere : placeholder? (spot :: rest) = none) :
    piecesOf (spot :: rest) = .char spot.char :: piecesOf rest := by
  rw [piecesOf]
  split <;> rename_i other
  · cases nowhere.symm.trans other
  · rfl

theorem placeholder?_eq_none {spot : Spot} {rest : List Spot} (other : spot.char ≠ '{') :
    placeholder? (spot :: rest) = none := by
  cases rest with
  | nil => rfl
  | cons second rest => exact if_neg fun opens => other opens.1

/-- The expressions of parts, in order. -/
def holes (parts : List Piece) : List String :=
  parts.filterMap Piece.expression?

/-- What holds no opening brace stands for itself in front of a template. -/
theorem pieces_append (plain : ∀ c ∈ lead, c ≠ '{') (cs : List Char) :
    pieces (lead ++ cs) = lead.map .char ++ pieces cs := by
  induction lead with
  | nil => rfl
  | cons c lead ih =>
      obtain ⟨other, plain⟩ := List.forall_mem_cons.1 plain
      have nowhere : placeholder? (.before c (spots (lead ++ cs)) :: spots (lead ++ cs)) = none :=
        placeholder?_eq_none other
      rw [List.cons_append, pieces, spots_cons, piecesOf_of_none nowhere]
      exact congrArg (List.cons _) (ih plain)

/-- White space in front of a template holds no placeholder. -/
theorem holes_append (blank : ∀ c ∈ lead, Text.isBlank c) (cs : List Char) :
    holes (pieces (lead ++ cs)) = holes (pieces cs) := by
  have nothing : lead.filterMap (Piece.expression? ∘ Piece.char) = [] :=
    List.filterMap_eq_nil_iff.2 fun c _ => rfl
  rw [pieces_append fun c member => (not_blank_brace (blank c member)).1, holes,
    List.filterMap_append, List.filterMap_map, nothing, List.nil_append]
  rfl

/-- The expression of a template that is one placeholder is one of its expressions. -/
theorem mem_expressions_of_whole {template expression : String}
    (whole : whole? template = some expression) : expression ∈ expressions template := by
  obtain ⟨lead, trail, parts, blankLead, blankTrail⟩ := Text.exists_trim template.toList
  simp only [whole?] at whole
  split at whole
  · rename_i text found
    cases whole
    obtain ⟨inside, rest, shape, ends, reads⟩ := placeholder?_eq_some found
    have foundToo := reads _ (spots_idle blankTrail)
    rw [← spots_append blankTrail] at foundToo
    have inside : String.ofList text ∈ holes (pieces (Text.trim template.toList ++ trail)) := by
      rw [pieces, piecesOf_of_placeholder foundToo]
      exact List.mem_cons_self ..
    rw [← holes_append blankLead, ← parts] at inside
    exact inside
  · cases whole

end Template

end UiDoc
