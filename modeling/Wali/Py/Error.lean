import Wali.Py.Str
import Mathlib.Data.List.Basic

/-!
# Python exceptions

The exceptions the modelled code raises. `RecursionError` is what an unbounded
recursion ends in; in Python it is a subclass of `RuntimeError`.
-/

namespace Py

inductive Error where
  | runtimeError (msg : Str)
  | recursionError
  | keyError (key : Str)
  | assertionError (msg : Str)
  deriving DecidableEq, Repr

/-- What `except RuntimeError` catches. -/
def Error.isRuntimeError : Error → Bool
  | .runtimeError _ | .recursionError => true
  | .keyError _ | .assertionError _ => false

/-- `str` of the exception. -/
def Error.text : Error → Str
  | .runtimeError msg | .assertionError msg => msg
  | .recursionError => "maximum recursion depth exceeded"
  | .keyError key => "'" ++ key ++ "'"

instance decidableEqExcept {ε α : Type*} [DecidableEq ε] [DecidableEq α] : DecidableEq (Except ε α)
  | .ok a, .ok b => decidable_of_iff (a = b) ⟨congrArg _, Except.ok.inj⟩
  | .error d, .error e => decidable_of_iff (d = e) ⟨congrArg _, Except.error.inj⟩
  | .ok _, .error _ => isFalse (by rintro ⟨⟩)
  | .error _, .ok _ => isFalse (by rintro ⟨⟩)

theorem map_eq_ok_iff {ε α β : Type*} {r : Except ε α} {f : α → β} {b : β} :
    r.map f = .ok b ↔ ∃ a, r = .ok a ∧ f a = b := by
  cases r with
  | error e => simp [Except.map]
  | ok a => simp [Except.map]

theorem mapError_eq_ok_iff {ε δ α : Type*} {r : Except ε α} {f : ε → δ} {a : α} :
    r.mapError f = .ok a ↔ r = .ok a := by
  cases r with
  | error e => simp [Except.mapError]
  | ok b => simp [Except.mapError]

theorem bind_eq_ok_iff.{u, v} {ε : Type u} {α β : Type v} {r : Except ε α} {f : α → Except ε β} {b : β} :
    (r >>= f) = .ok b ↔ ∃ a, r = .ok a ∧ f a = .ok b := by
  cases r with
  | error e => exact iff_of_false (fun h => by cases h) fun ⟨_, h, _⟩ => by cases h
  | ok a => exact ⟨fun h => ⟨a, rfl, h⟩, fun ⟨_, h, hb⟩ => by cases h; exact hb⟩

/-- A comprehension succeeds when every element does, and gives the results in order. -/
theorem mapM_eq_ok_iff {ε α β : Type*} {f : α → Except ε β} {xs : List α} {ys : List β} :
    xs.mapM f = .ok ys ↔ xs.map f = ys.map .ok := by
  induction xs generalizing ys with
  | nil =>
    cases ys with
    | nil => exact iff_of_true rfl rfl
    | cons y ys => exact iff_of_false nofun nofun
  | cons x xs ih =>
    rw [List.mapM_cons, List.map_cons]
    cases hx : f x with
    | error e =>
      refine iff_of_false nofun fun h => ?_
      cases ys with
      | nil => cases h
      | cons y ys => cases (List.cons.inj h).1
    | ok y =>
      cases hxs : xs.mapM f with
      | error e =>
        refine iff_of_false nofun fun h => ?_
        cases ys with
        | nil => cases h
        | cons z zs =>
          rw [ih.mpr (List.cons.inj h).2] at hxs
          cases hxs
      | ok zs =>
        rw [ih.mp hxs, ← List.map_cons]
        constructor
        · intro h
          exact congrArg _ (Except.ok.inj h)
        · intro h
          exact congrArg _ (List.map_injective_iff.mpr (fun _ _ => Except.ok.inj) h)

theorem mapM_ok_length {ε α β : Type*} {f : α → Except ε β} {xs : List α} {ys : List β}
    (h : xs.mapM f = .ok ys) : ys.length = xs.length := by
  have hl := congrArg List.length (mapM_eq_ok_iff.mp h)
  rw [List.length_map, List.length_map] at hl
  exact hl.symm

/-- What each result keeps of its element, the list of results keeps. -/
theorem mapM_ok_map {ε α β γ : Type*} {f : α → Except ε β} {g : β → γ} {k : α → γ}
    (hg : ∀ x y, f x = .ok y → g y = k x) {xs : List α} {ys : List β} (h : xs.mapM f = .ok ys) :
    ys.map g = xs.map k := by
  rw [mapM_eq_ok_iff] at h
  induction xs generalizing ys with
  | nil =>
    cases ys with
    | nil => rfl
    | cons y ys => cases h
  | cons x xs ih =>
    cases ys with
    | nil => cases h
    | cons y ys =>
      obtain ⟨hy, hys⟩ := List.cons.inj h
      rw [List.map_cons, List.map_cons, hg x y hy, ih hys]

theorem mapM_ok_getElem? {ε α β : Type*} {f : α → Except ε β} {xs : List α} {ys : List β}
    (h : xs.mapM f = .ok ys) {i : ℕ} {x : α} (hx : xs[i]? = some x) :
    ∃ y, ys[i]? = some y ∧ f x = .ok y := by
  have hi := congrArg (·[i]?) (mapM_eq_ok_iff.mp h)
  simp only [List.getElem?_map, hx, Option.map_some] at hi
  cases hy : ys[i]? with
  | none => rw [hy] at hi; cases hi
  | some y =>
    rw [hy] at hi
    exact ⟨y, rfl, Option.some.inj hi⟩

theorem mapM_ok_getElem?_inv {ε α β : Type*} {f : α → Except ε β} {xs : List α} {ys : List β}
    (h : xs.mapM f = .ok ys) {i : ℕ} {y : β} (hy : ys[i]? = some y) :
    ∃ x, xs[i]? = some x ∧ f x = .ok y := by
  have hi := congrArg (·[i]?) (mapM_eq_ok_iff.mp h)
  simp only [List.getElem?_map, hy, Option.map_some] at hi
  cases hx : xs[i]? with
  | none => rw [hx] at hi; cases hi
  | some x =>
    rw [hx] at hi
    exact ⟨x, rfl, Option.some.inj hi⟩

/-- A comprehension over two lists side by side, by position. -/
theorem mapM_zip_getElem? {ε α β γ δ : Type*} {f : α → Except ε γ} {k : γ → β → δ} {xs : List α}
    {ys : List β} {zs : List δ} (h : (xs.zip ys).mapM (fun e => (f e.1).map (k · e.2)) = .ok zs)
    {i : ℕ} {z : δ} :
    zs[i]? = some z ↔
      ∃ x y b, xs[i]? = some x ∧ ys[i]? = some y ∧ f x = .ok b ∧ k b y = z := by
  constructor
  · intro hz
    obtain ⟨e, he, hok⟩ := mapM_ok_getElem?_inv h hz
    obtain ⟨h1, h2⟩ := List.getElem?_zip_eq_some.mp he
    obtain ⟨b, hb, hk⟩ := map_eq_ok_iff.mp hok
    exact ⟨e.1, e.2, b, h1, h2, hb, hk⟩
  · rintro ⟨x, y, b, hx, hy, hb, hk⟩
    have he : (xs.zip ys)[i]? = some (x, y) := List.getElem?_zip_eq_some.mpr ⟨hx, hy⟩
    obtain ⟨z', hz', hok⟩ := mapM_ok_getElem? h he
    rw [hb] at hok
    rw [hz', ← hk]
    exact congrArg some (Except.ok.inj hok).symm

theorem mem_of_mapM_ok {ε α β : Type*} {f : α → Except ε β} {xs : List α} {ys : List β}
    (h : xs.mapM f = .ok ys) {x : α} (hx : x ∈ xs) : ∃ y ∈ ys, f x = .ok y := by
  have hmem : f x ∈ ys.map .ok := mapM_eq_ok_iff.mp h ▸ List.mem_map_of_mem hx
  obtain ⟨y, hy, he⟩ := List.mem_map.mp hmem
  exact ⟨y, hy, he.symm⟩

theorem exists_of_mem_mapM_ok {ε α β : Type*} {f : α → Except ε β} {xs : List α} {ys : List β}
    (h : xs.mapM f = .ok ys) {y : β} (hy : y ∈ ys) : ∃ x ∈ xs, f x = .ok y := by
  have hmem : .ok y ∈ xs.map f := mapM_eq_ok_iff.mp h ▸ List.mem_map_of_mem hy
  exact List.mem_map.mp hmem

theorem mapM_exists_ok {ε α β : Type*} {f : α → Except ε β} {xs : List α}
    (h : ∀ x ∈ xs, ∃ y, f x = .ok y) : ∃ ys, xs.mapM f = .ok ys := by
  induction xs with
  | nil => exact ⟨[], rfl⟩
  | cons x xs ih =>
    obtain ⟨y, hy⟩ := h x List.mem_cons_self
    obtain ⟨ys, hys⟩ := ih fun z hz => h z (List.mem_cons_of_mem x hz)
    refine ⟨y :: ys, ?_⟩
    rw [List.mapM_cons, hy, hys]
    rfl

/-- A comprehension in two steps. -/
theorem mapM_map_ok {ε α β γ : Type*} {f : α → Except ε β} {g : β → γ} {xs : List α} {zs : List γ}
    (h : xs.mapM (fun x => (f x).map g) = .ok zs) : ∃ ys, xs.mapM f = .ok ys ∧ ys.map g = zs := by
  have hall : ∀ x ∈ xs, ∃ y, f x = .ok y := by
    intro x hx
    obtain ⟨z, _, hz⟩ := mem_of_mapM_ok h hx
    obtain ⟨y, hy, _⟩ := map_eq_ok_iff.mp hz
    exact ⟨y, hy⟩
  obtain ⟨ys, hys⟩ := mapM_exists_ok hall
  have hok : zs.map Except.ok = (ys.map g).map (Except.ok (ε := ε)) := calc
    zs.map .ok = xs.map (fun x => (f x).map g) := (mapM_eq_ok_iff.mp h).symm
    _ = (xs.map f).map (Except.map g) := by rw [List.map_map]; rfl
    _ = (ys.map .ok).map (Except.map g) := by rw [mapM_eq_ok_iff.mp hys]
    _ = (ys.map g).map .ok := by rw [List.map_map, List.map_map]; rfl
  exact ⟨ys, hys, (List.map_injective_iff.mpr (fun _ _ => Except.ok.inj) hok).symm⟩

end Py
