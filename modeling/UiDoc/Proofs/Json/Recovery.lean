import UiDoc.Json.Decoder
import UiDoc.Proofs.Record

/-!
# Decoding what has been encoded

A decoder recovers an encoding if whatever it makes of a draft is also what it makes of the encoding
of that.  Such decoders are built from smaller ones: for values, lists, named values and choices.
-/

namespace UiDoc

/-- A sequence succeeds if both of its steps do. -/
theorem bind_eq_ok {ε α β : Type} {first : Except ε α} {second : α → Except ε β} {y : β} :
    first >>= second = .ok y ↔ ∃ x, first = .ok x ∧ second x = .ok y := by
  cases first with
  | error e => simp [bind, Except.bind]
  | ok x => simp [bind, Except.bind]

theorem map_eq_ok {ε α β : Type} {x : Except ε α} {f : α → β} {y : β} :
    x.map f = .ok y ↔ ∃ a, x = .ok a ∧ f a = y := by
  cases x with
  | error e => simp [Except.map]
  | ok a => simp [Except.map]

namespace Json

variable {α β : Type}

@[simp] theorem Mode.enter_whole : Mode.whole.enter = .ok .whole := rfl

@[simp] theorem Draft.closeWith_closed : Draft.closeWith .closed = .ok () := rfl

/-! ## Values -/

namespace Draft

theorem toItems_ofItems {vs : List Json}
    (recovered : ∀ v ∈ vs, toJson .whole (ofJson v) = .ok v) :
    toItems .whole (ofItems vs) = .ok vs := by
  induction vs with
  | nil => rfl
  | cons v vs ih =>
      simp only [List.mem_cons, forall_eq_or_imp] at recovered
      simp [ofItems, toItems, recovered.1, ih recovered.2, bind, Except.bind]

theorem toFields_ofFields {fields : List (String × Json)}
    (recovered : ∀ field ∈ fields, toJson .whole (ofJson field.2) = .ok field.2) :
    toFields .whole (ofFields fields) = .ok fields := by
  induction fields with
  | nil => rfl
  | cons field fields ih =>
      simp only [List.mem_cons, forall_eq_or_imp] at recovered
      simp [ofFields, toFields, useName, recovered.1, ih recovered.2, bind, Except.bind]

mutual

theorem toJson_recovers {mode : Mode} {d : Draft} {v : Json} (decoded : toJson mode d = .ok v) :
    toJson .whole (ofJson v) = .ok v := by
  match d with
  | .null | .bool _ | .num _ | .str _ =>
      simp only [toJson, Except.ok.injEq] at decoded
      subst decoded
      rfl
  | .flawed used _ _ => simp [toJson] at decoded
  | .arr items ending =>
      simp only [toJson, bind_eq_ok, Except.ok.injEq] at decoded
      rcases decoded with ⟨inner, -, vs, read, -, -, rfl⟩
      simp [ofJson, toJson, toItems_ofItems (toItems_recovers read), bind, Except.bind]
  | .obj fields ending =>
      simp only [toJson, bind_eq_ok, Except.ok.injEq] at decoded
      rcases decoded with ⟨inner, -, read, reads, -, -, rfl⟩
      have recovered : ∀ field ∈ Record.ofFields read,
          toJson .whole (ofJson field.2) = .ok field.2 :=
        fun field member => toFields_recovers reads field (Record.mem_of_mem_ofFields member)
      have distinct := Record.ofFields_of_nodup (Record.nodup_names_ofFields read)
      simp [ofJson, toJson, toFields_ofFields recovered, distinct, bind, Except.bind]

theorem toItems_recovers {mode : Mode} {items : List Draft} {vs : List Json}
    (decoded : toItems mode items = .ok vs) : ∀ v ∈ vs, toJson .whole (ofJson v) = .ok v := by
  match items with
  | [] =>
      simp only [toItems, Except.ok.injEq] at decoded
      simp [← decoded]
  | item :: items =>
      simp only [toItems, bind_eq_ok, Except.ok.injEq] at decoded
      rcases decoded with ⟨v, first, vs, rest, rfl⟩
      simp only [List.mem_cons, forall_eq_or_imp]
      exact ⟨toJson_recovers first, toItems_recovers rest⟩

theorem toFields_recovers {mode : Mode} {drafts : List (Option String × Draft)}
    {fields : List (String × Json)} (decoded : toFields mode drafts = .ok fields) :
    ∀ field ∈ fields, toJson .whole (ofJson field.2) = .ok field.2 := by
  match drafts with
  | [] =>
      simp only [toFields, Except.ok.injEq] at decoded
      simp [← decoded]
  | (name, d) :: drafts =>
      simp only [toFields, bind_eq_ok, Except.ok.injEq] at decoded
      rcases decoded with ⟨name, -, v, first, fields, rest, rfl⟩
      simp only [List.mem_cons, forall_eq_or_imp]
      exact ⟨toJson_recovers first, toFields_recovers rest⟩

end

end Draft

namespace Decoder

/-- What is decoded from any draft is decoded again from its encoding. -/
def Recovers (decoder : Decoder α) (encode : α → Json) : Prop :=
  ∀ mode d x, decoder mode d = .ok x → decode decoder (encode x) = .ok x

theorem value_recovers : Recovers value id :=
  fun _ _ _ decoded => Draft.toJson_recovers decoded

/-! ## Lists and named values -/

theorem each_ofItems {decoder : Decoder α} {encode : α → Json} {xs : List α}
    (recovered : ∀ x ∈ xs, decode decoder (encode x) = .ok x) :
    each (decoder .whole) (Draft.ofItems (xs.map encode)) = .ok xs := by
  induction xs with
  | nil => rfl
  | cons x xs ih =>
      simp only [List.mem_cons, forall_eq_or_imp] at recovered
      have first : decoder .whole (Draft.ofJson (encode x)) = .ok x := recovered.1
      simp [Draft.ofItems, each, first, ih recovered.2, bind, Except.bind]

/-- A list is recovered if its items are. -/
theorem decode_list {decoder : Decoder α} {encode : α → Json} {xs : List α}
    (recovered : ∀ x ∈ xs, decode decoder (encode x) = .ok x) :
    decode (list decoder) (.arr (xs.map encode)) = .ok xs := by
  simp [decode, list, Draft.ofJson, each_ofItems recovered, bind, Except.bind]

theorem exists_of_each {read : Draft → Except ReadError α} {items : List Draft} {xs : List α}
    (decoded : each read items = .ok xs) {x : α} (member : x ∈ xs) : ∃ d, read d = .ok x := by
  induction items generalizing xs with
  | nil =>
      simp only [each, Except.ok.injEq] at decoded
      simp [← decoded] at member
  | cons item items ih =>
      simp only [each, bind_eq_ok, Except.ok.injEq] at decoded
      rcases decoded with ⟨first, reads, rest, later, rfl⟩
      rcases List.mem_cons.1 member with rfl | member
      · exact ⟨item, reads⟩
      · exact ih later member

/-- The items of a list come from drafts. -/
theorem exists_of_list {decoder : Decoder α} {mode : Mode} {d : Draft} {xs : List α}
    (decoded : list decoder mode d = .ok xs) {x : α} (member : x ∈ xs) :
    ∃ mode d, decoder mode d = .ok x := by
  simp only [list] at decoded
  split at decoded
  · simp only [bind_eq_ok, Except.ok.injEq] at decoded
    rcases decoded with ⟨inner, -, read, reads, -, -, rfl⟩
    exact ⟨inner, exists_of_each reads member⟩
  · cases decoded

theorem Recovers.list {decoder : Decoder α} {encode : α → Json}
    (recovers : decoder.Recovers encode) :
    Recovers (list decoder) fun xs => .arr (xs.map encode) := by
  intro mode d xs decoded
  apply decode_list
  intro x member
  obtain ⟨inner, draft, reads⟩ := exists_of_list decoded member
  exact recovers inner draft x reads

theorem eachField_ofFields {decoder : Decoder α} {encode : α → Json} {r : List (String × α)}
    (recovered : ∀ field ∈ r, decode decoder (encode field.2) = .ok field.2) :
    eachField (decoder .whole)
      (Draft.ofFields (r.map fun field => (field.1, encode field.2))) = .ok r := by
  induction r with
  | nil => rfl
  | cons field r ih =>
      simp only [List.mem_cons, forall_eq_or_imp] at recovered
      have first : decoder .whole (Draft.ofJson (encode field.2)) = .ok field.2 := recovered.1
      simp [Draft.ofFields, eachField, Draft.useName, first, ih recovered.2, bind, Except.bind]

theorem exists_of_eachField {read : Draft → Except ReadError α}
    {drafts : List (Option String × Draft)} {fields : List (String × α)}
    (decoded : eachField read drafts = .ok fields) {field : String × α} (member : field ∈ fields) :
    ∃ d, read d = .ok field.2 := by
  induction drafts generalizing fields with
  | nil =>
      simp only [eachField, Except.ok.injEq] at decoded
      simp [← decoded] at member
  | cons first drafts ih =>
      obtain ⟨name, d⟩ := first
      simp only [eachField, bind_eq_ok, Except.ok.injEq] at decoded
      rcases decoded with ⟨name, -, x, reads, rest, later, rfl⟩
      rcases List.mem_cons.1 member with rfl | member
      · exact ⟨d, reads⟩
      · exact ih later member

theorem Recovers.record {decoder : Decoder α} {encode : α → Json}
    (recovers : decoder.Recovers encode) :
    Recovers (record decoder) fun r => .obj (r.map fun field => (field.1, encode field.2)) := by
  intro mode d r decoded
  simp only [Decoder.record] at decoded
  split at decoded
  · simp only [bind_eq_ok, Except.ok.injEq] at decoded
    rcases decoded with ⟨inner, -, read, reads, -, -, rfl⟩
    have recovered : ∀ field ∈ Record.ofFields read,
        decode decoder (encode field.2) = .ok field.2 := by
      intro field member
      obtain ⟨draft, one⟩ := exists_of_eachField reads (Record.mem_of_mem_ofFields member)
      exact recovers inner draft field.2 one
    have distinct := Record.ofFields_of_nodup (Record.nodup_names_ofFields read)
    simp [decode, Decoder.record, Draft.ofJson, eachField_ofFields recovered, distinct, bind,
      Except.bind]
  · cases decoded

theorem object_recovers : Recovers object .obj := by
  intro mode d r decoded
  have recovered := value_recovers.record mode d r decoded
  simpa [object] using recovered

/-! ## Choices -/

/-- A choice that could be read was read in one of its two forms. -/
theorem orElse_eq_ok {first second : Except ReadError α} {x : α}
    (decoded : orElse first second = .ok x) : first = .ok x ∨ second = .ok x := by
  simp only [orElse] at decoded
  split at decoded
  · exact .inl decoded
  · exact .inr decoded

theorem orElse_of_ok {first second : Except ReadError α} {x : α} (decoded : first = .ok x) :
    orElse first second = .ok x := by
  rw [decoded]
  rfl

theorem orElse_of_refused {first second : Except ReadError α} (refused : ∀ x, first ≠ .ok x) :
    orElse first second = second := by
  cases first with
  | error e => rfl
  | ok x => exact absurd rfl (refused x)

theorem exists_of_buffered {read : Draft → Except ReadError α} {mode : Mode} {d : Draft} {x : α}
    (decoded : buffered read mode d = .ok x) : ∃ d, read d = .ok x := by
  simp only [buffered] at decoded
  cases mode with
  | whole => exact ⟨d, decoded⟩
  | text depth =>
      obtain ⟨-, -, reads⟩ := bind_eq_ok.1 decoded
      exact ⟨d, reads⟩

/-- What is decoded from a draft other than `null` is decoded where `null` is allowed, too. -/
theorem decode_nullable {decoder : Decoder α} {v : Json} {x : α} (proper : v ≠ .null)
    (decoded : decode decoder v = .ok x) : decode (nullable decoder) v = .ok (some x) := by
  have draft : ∀ d, d ≠ Draft.null → decoder .whole d = .ok x →
      nullable decoder .whole d = .ok (some x) := by
    intro d notNull reads
    unfold nullable
    split
    · contradiction
    · rw [reads]
      rfl
  refine draft _ ?_ decoded
  cases v <;> simp [Draft.ofJson] at proper ⊢

theorem of_nullable {decoder : Decoder α} {mode : Mode} {d : Draft} {x : α}
    (decoded : nullable decoder mode d = .ok (some x)) : decoder mode d = .ok x := by
  simp only [nullable] at decoded
  split at decoded
  · cases decoded
  · obtain ⟨y, reads, same⟩ := map_eq_ok.1 decoded
    cases same
    exact reads

theorem decode_object_of_nullable {mode : Mode} {d : Draft} {o : Option (Record Json)}
    (decoded : nullable object mode d = .ok o) :
    ∀ r, o = some r → decode object (.obj r) = .ok r := by
  rintro r rfl
  exact object_recovers mode d r (of_nullable decoded)

end Decoder

end Json

end UiDoc
