import BitmapFont.Error

/-!
Changes in place.

A `Change` of a value answers or fails, and either way leaves some value behind:
one that fails after its first write leaves that write. That an operation leaves
nothing behind when it fails is therefore a fact about the operation. The lemmas
`on_…` say what each way of building a change does to a value.
-/

namespace BitmapFont

/-- Changes of a value of type `σ`. -/
abbrev Change (σ : Type) := ExceptT FontError (StateM σ)

namespace Change

variable {σ τ α β : Type}

/-- The answer of a change of `s`, and the value that it leaves behind. -/
def on (c : Change σ α) (s : σ) : Except FontError α × σ :=
  c.run.run s

@[simp] theorem on_pure (a : α) (s : σ) : (pure a : Change σ α).on s = (.ok a, s) := rfl

@[simp] theorem on_throw (cause : FontError) (s : σ) :
    (throw cause : Change σ α).on s = (.error cause, s) := rfl

@[simp] theorem on_get (s : σ) : (get : Change σ σ).on s = (.ok s, s) := rfl

@[simp] theorem on_set (t s : σ) : (set t : Change σ PUnit).on s = (.ok ⟨⟩, t) := rfl

@[simp] theorem on_modify (f : σ → σ) (s : σ) :
    (modify f : Change σ PUnit).on s = (.ok ⟨⟩, f s) := rfl

/-- A calculation that may fail changes nothing. -/
@[simp] theorem on_lift (e : Except FontError α) (s : σ) :
    (liftM e : Change σ α).on s = (e, s) := rfl

/-- A failure ends a change with what was written so far. -/
theorem on_bind (c : Change σ α) (next : α → Change σ β) (s : σ) :
    (c >>= next).on s =
      match c.on s with
      | (.ok a, t) => (next a).on t
      | (.error cause, t) => (.error cause, t) := by
  change (match c.on s with | (answer, t) => ExceptT.bindCont next answer t) = _
  rcases c.on s with ⟨cause | a, t⟩
  · rfl
  · rfl

@[simp] theorem on_map (f : α → β) (c : Change σ α) (s : σ) :
    (f <$> c).on s = ((c.on s).1.map f, (c.on s).2) := by
  rw [← bind_pure_comp, on_bind]
  rcases c.on s with ⟨cause | a, t⟩
  · rfl
  · rfl

/-- A change of one part of a value. -/
def inside (part : σ → τ) (put : σ → τ → σ) (c : Change τ α) : Change σ α :=
  ExceptT.mk fun s =>
    let done := c.on (part s)
    (done.1, put s done.2)

theorem on_inside (part : σ → τ) (put : σ → τ → σ) (c : Change τ α) (s : σ) :
    (c.inside part put).on s = ((c.on (part s)).1, put s (c.on (part s)).2) := rfl

/-- A change of every element of a list, each seen with its index, the first of
which is `start`. The elements before the first failure stay changed. -/
def eachFrom (c : Nat → Change σ α) : (start : Nat) → List σ → Except FontError (List α) × List σ
  | _, [] => (.ok [], [])
  | start, s :: rest =>
    match (c start).on s with
    | (.error cause, t) => (.error cause, t :: rest)
    | (.ok a, t) =>
      let done := eachFrom c (start + 1) rest
      (done.1.map (a :: ·), t :: done.2)

@[simp] theorem length_eachFrom (c : Nat → Change σ α) (start : Nat) (list : List σ) :
    (eachFrom c start list).2.length = list.length := by
  induction list generalizing start with
  | nil => rfl
  | cons s rest ih =>
      unfold eachFrom
      split
      · rfl
      · simp [ih]

/-- If no element fails, each is replaced by what its change leaves. -/
theorem eachFrom_of_ok {c : Nat → Change σ α} {answer : Nat → σ → α} {result : Nat → σ → σ}
    (ok : ∀ i s, (c i).on s = (.ok (answer i s), result i s)) (start : Nat) (list : List σ) :
    eachFrom c start list =
      (.ok (list.mapIdx fun i => answer (start + i)), list.mapIdx fun i => result (start + i)) := by
  induction list generalizing start with
  | nil => rfl
  | cons s rest ih =>
      unfold eachFrom
      rw [ok, ih]
      simp [List.mapIdx_cons, Except.map, Nat.add_assoc, Nat.add_comm 1]

end Change

end BitmapFont
