import UiDoc.Proofs.Script.Lexing
import UiDoc.Script.Parser

/-!
# What readers give

Where a reader does not fail, it gives something and leaves the cursor somewhere.  What is known of
both is put together from its steps; nothing is said of a reader that fails.
-/

namespace UiDoc.Script

namespace Reader

variable {α β : Type} {cursor : Cursor} {token : Token} {s : String}

/-- If a reader that starts at the cursor does not fail, what it gives and where it ends have the
property. -/
def Gives (reader : Reader α) (cursor : Cursor) (post : α → Cursor → Prop) : Prop :=
  ∀ a next, reader.run cursor = some (a, next) → post a next

theorem gives_pure {post : α → Cursor → Prop} {a : α} (satisfied : post a cursor) :
    Gives (pure a) cursor post := by
  intro b next run
  cases run
  exact satisfied

theorem gives_failure (post : α → Cursor → Prop) : Gives failure cursor post := by
  intro a next run
  cases run

theorem Gives.bind {x : Reader α} {f : α → Reader β} {middle : α → Cursor → Prop}
    {post : β → Cursor → Prop} (first : x.Gives cursor middle)
    (second : ∀ a next, middle a next → (f a).Gives next post) : (x >>= f).Gives cursor post := by
  intro b last run
  obtain ⟨⟨a, next⟩, runFirst, runSecond⟩ := Option.bind_eq_some_iff.1 run
  exact second a next (first a next runFirst) b last runSecond

theorem Gives.mono {reader : Reader α} {post weaker : α → Cursor → Prop}
    (gives : reader.Gives cursor post) (follows : ∀ a next, post a next → weaker a next) :
    reader.Gives cursor weaker :=
  fun a next run => follows a next (gives a next run)

/-! ## Steps -/

/-- To look at the next token changes nothing. -/
theorem gives_cursor {f : Cursor → Reader α} {post : α → Cursor → Prop}
    (gives : (f cursor).Gives cursor post) : (Reader.cursor >>= f).Gives cursor post :=
  gives

theorem gives_second {f : Option Cursor → Reader α} {post : α → Cursor → Prop}
    (gives : (f cursor.next?).Gives cursor post) : (second >>= f).Gives cursor post :=
  gives

theorem gives_isAt {f : Bool → Reader α} {post : α → Cursor → Prop}
    (gives : (f (cursor.atSign s)).Gives cursor post) : (isAt s >>= f).Gives cursor post :=
  gives

theorem gives_isAtWord {f : Bool → Reader α} {post : α → Cursor → Prop}
    (gives : (f (cursor.atWord s)).Gives cursor post) : (isAtWord s >>= f).Gives cursor post :=
  gives

/-- Behind the next token stands the text behind it. -/
theorem gives_skip {f : Unit → Reader α} {post : α → Cursor → Prop}
    (gives : ∀ next : Cursor, next.At cursor.rest → (f ()).Gives next post) :
    (skip >>= f).Gives cursor post := by
  have skips : skip.Gives cursor fun _ next => next.At cursor.rest := by
    intro _ next run
    obtain ⟨after, found, same⟩ := Option.map_eq_some_iff.1 run
    cases same
    exact .next found
  exact skips.bind fun _ => gives

theorem gives_expect {f : Unit → Reader α} {post : α → Cursor → Prop}
    (gives : ∀ next : Cursor, next.At cursor.rest → (f ()).Gives next post) :
    (expect s >>= f).Gives cursor post := by
  rw [expect, bind_assoc]
  apply gives_isAt
  split
  · exact gives_skip gives
  · exact (gives_failure fun _ _ => False).bind fun _ _ no => no.elim

/-- A sign that is not there is not gone past. -/
theorem gives_accept_of_not_atSign {f : Bool → Reader α} {post : α → Cursor → Prop}
    (elsewhere : cursor.atSign s = false) (gives : (f false).Gives cursor post) :
    (accept s >>= f).Gives cursor post := by
  rw [accept, bind_assoc]
  apply gives_isAt
  rw [if_neg (by simp [elsewhere]), pure_bind]
  exact gives

end Reader

end UiDoc.Script
