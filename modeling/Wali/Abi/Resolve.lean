import Wali.Chase
import Wali.Abi.Registry
import Mathlib.Algebra.BigOperators.Group.List.Basic
import Mathlib.Data.List.Infix

/-!
# Resolving type names

`resolve_size`, `resolve_alignment` and `resolve_primitive` follow a type name
through the alias and array tables and through inline array suffixes. Python
recurses; a resolution that goes round in a circle ends in a `RecursionError`.
The definitions recurse on a budget of calls and give that error when it is used
up. `depthBound` is a budget that only circular resolutions exceed, so
each resolver satisfies the recursion equation of the source: `resolveSize_eq`,
`resolveAlignment_eq`, `resolvePrimitive_eq`.
-/

namespace Wali.TypeRegistry

open Py (Str Dict)

/-- `_INLINE_ARRAY_RE`: a non-empty element type without line breaks, a bracketed decimal count,
the end of the string or a line break just before it. -/
def parseInlineArray (typeName : Str) : Option (ℕ × Str) :=
  let body := if Py.endsWith typeName "\n" then typeName.dropLast else typeName
  match body.reverse with
  | ']' :: rest =>
    let digits := rest.takeWhile Py.isDigit
    match rest.dropWhile Py.isDigit with
    | '[' :: elem =>
      if digits ≠ [] ∧ elem ≠ [] ∧ '\n' ∉ elem then
        some (Py.intOfDigits digits.reverse, elem.reverse)
      else none
    | _ => none
  | _ => none

/-- A final newline, if there is one, is left out of the match. -/
theorem exists_newline_tail (t : Str) : ∃ body tail : Str, t = body ++ tail ∧
    (tail = [] ∨ tail = ['\n']) ∧ (if Py.endsWith t "\n" then t.dropLast else t) = body := by
  by_cases hn : Py.endsWith t "\n" = true
  · obtain ⟨u, hu⟩ := Py.endsWith_iff.mp hn
    subst hu
    exact ⟨u, ['\n'], rfl, Or.inr rfl, by rw [if_pos hn]; exact List.dropLast_concat⟩
  · exact ⟨t, [], (List.append_nil t).symm, Or.inl rfl, if_neg hn⟩

theorem newline_tail_bracket (body : Str) {tail : Str} (htail : tail = [] ∨ tail = ['\n']) :
    (if Py.endsWith (body ++ ']' :: tail) "\n" then (body ++ ']' :: tail).dropLast
      else body ++ ']' :: tail) = body ++ [']'] := by
  rcases htail with rfl | rfl
  · rw [if_neg]
    rw [Py.endsWith_iff]
    rintro ⟨u, hu⟩
    have hlast := congrArg List.getLast? hu
    rw [List.getLast?_append, List.getLast?_append] at hlast
    simp at hlast
  · rw [if_pos]
    · rw [show body ++ [']', '\n'] = (body ++ [']']) ++ ['\n'] by simp, List.dropLast_concat]
    · rw [Py.endsWith_iff]
      exact ⟨body ++ [']'], by simp⟩

/-- The strings the inline array pattern matches, and what it extracts from them. -/
theorem parseInlineArray_eq_some_iff {t elem : Str} {count : ℕ} :
    parseInlineArray t = some (count, elem) ↔
      ∃ digits tail : Str, t = elem ++ '[' :: (digits ++ ']' :: tail) ∧ (tail = [] ∨ tail = ['\n']) ∧
        digits ≠ [] ∧ (∀ c ∈ digits, Py.isDigit c) ∧ elem ≠ [] ∧ '\n' ∉ elem ∧
        Py.intOfDigits digits = count := by
  constructor
  · intro h
    obtain ⟨body, tail, ht, htail, hbody⟩ := exists_newline_tail t
    simp only [parseInlineArray, hbody] at h
    split at h
    · next rest hrest =>
      split at h
      · next e he =>
        split at h
        · next hc =>
          obtain ⟨hd, hne, hnl⟩ := hc
          simp only [Option.some.injEq, Prod.mk.injEq] at h
          obtain ⟨rfl, rfl⟩ := h
          refine ⟨(rest.takeWhile Py.isDigit).reverse, tail, ?_, htail, by simpa using hd, ?_,
            by simpa using hne, by simpa using hnl, rfl⟩
          · have hr := List.takeWhile_append_dropWhile (p := Py.isDigit) (l := rest)
            rw [he] at hr
            rw [ht, ← List.reverse_reverse body, hrest]
            conv_lhs => rw [← hr]
            simp
          · intro c hc
            exact List.mem_takeWhile_imp (List.mem_reverse.mp hc)
        · cases h
      · cases h
    · cases h
  · rintro ⟨digits, tail, rfl, htail, hd, hdig, hne, hnl, rfl⟩
    have hbody := newline_tail_bracket (elem ++ '[' :: digits) htail
    -- the pattern is read from its end, where the brackets are unambiguous
    have hrev : (elem ++ '[' :: digits ++ [']']).reverse =
        ']' :: (digits.reverse ++ '[' :: elem.reverse) := by simp
    have hdig' : ∀ c ∈ digits.reverse, Py.isDigit c = true :=
      fun c hc => hdig c (List.mem_reverse.mp hc)
    have hbr : Py.isDigit '[' = false := by decide
    rw [← List.cons_append, ← List.append_assoc]
    simp only [parseInlineArray, hbody, hrev, List.takeWhile_append_of_pos hdig',
      List.dropWhile_append_of_pos hdig', List.takeWhile_cons, List.dropWhile_cons, hbr]
    simp [hd, hne, hnl]

theorem parseInlineArray_elem {t elem : Str} {count : ℕ}
    (h : parseInlineArray t = some (count, elem)) : elem <+: t ∧ elem.length < t.length := by
  obtain ⟨digits, tail, rfl, _⟩ := parseInlineArray_eq_some_iff.mp h
  exact ⟨List.prefix_append _ _, by simp⟩

variable (R : TypeRegistry)

/-- `c_primitives['ptr'].size`. -/
def ptrSize : Except Py.Error ℕ :=
  match R.cPrimitives.get? "ptr" with
  | some p => .ok p.size
  | none => .error (.keyError "ptr")

def resolvePrimitiveIn : ℕ → Str → Except Py.Error Primitive
  | 0, _ => .error .recursionError
  | n + 1, typeName =>
    match R.cPrimitives.get? typeName with
    | some p => .ok p
    | none =>
    match R.typeAliases.get? typeName with
    | some target => resolvePrimitiveIn n target
    | none => .error (.runtimeError ("Cannot resolve '" ++ typeName ++
        "' to a primitive (not in c_primitives or type_aliases)"))

def resolveSizeIn : ℕ → Str → Except Py.Error ℕ
  | 0, _ => .error .recursionError
  | n + 1, typeName =>
    if Py.endsWith typeName "*" then R.ptrSize else
    match R.cPrimitives.get? typeName with
    | some p => .ok p.size
    | none =>
    match R.typeAliases.get? typeName with
    | some target => resolveSizeIn n target
    | none =>
    match R.arrayTypes.get? typeName with
    | some a => (resolveSizeIn n a.elementType).map (a.count * ·)
    | none =>
    match R.structDefs.get? typeName with
    | some sd => .ok sd.totalSize
    | none =>
    match parseInlineArray typeName with
    | some (count, elem) => (resolveSizeIn n elem).map (count * ·)
    | none => .error (.runtimeError ("Cannot resolve size for type '" ++ typeName ++ "'"))

def resolveAlignmentIn : ℕ → Str → Except Py.Error ℕ
  | 0, _ => .error .recursionError
  | n + 1, typeName =>
    if Py.endsWith typeName "*" then R.ptrSize else
    match R.cPrimitives.get? typeName with
    | some p => .ok p.size
    | none =>
    match R.typeAliases.get? typeName with
    | some target => resolveAlignmentIn n target
    | none =>
    match R.arrayTypes.get? typeName with
    | some a => resolveAlignmentIn n a.elementType
    | none =>
    match R.structDefs.get? typeName with
    | some sd => .ok sd.alignment
    | none =>
    match parseInlineArray typeName with
    | some (_, elem) => resolveAlignmentIn n elem
    | none => .error (.runtimeError ("Cannot resolve alignment for type '" ++ typeName ++ "'"))

/-- The type names the alias and array tables lead to. -/
def targets : List Str := R.typeAliases.values ++ R.arrayTypes.values.map ArrayType.elementType

/-- More calls than a resolution that ends can make: every name on the way is a beginning of the
given name or of a table target. -/
def depthBound (typeName : Str) : ℕ := (typeName :: R.targets).foldr (fun t n => t.length + 1 + n) 0

def resolvePrimitive (typeName : Str) : Except Py.Error Primitive :=
  R.resolvePrimitiveIn (R.depthBound typeName) typeName

def resolveSize (typeName : Str) : Except Py.Error ℕ :=
  R.resolveSizeIn (R.depthBound typeName) typeName

def resolveAlignment (typeName : Str) : Except Py.Error ℕ :=
  R.resolveAlignmentIn (R.depthBound typeName) typeName

-- ════════════════════════════════════════════════════════════════════════
-- The shape of a type name
-- ════════════════════════════════════════════════════════════════════════

/-- Which case of `resolve_size` and `resolve_alignment` a type name falls into. -/
inductive Shape where
  | pointer
  | primitive (p : Primitive)
  | aliasTo (target : Str)
  | arrayOf (a : ArrayType)
  | struct (sd : StructDef)
  | inlineArray (count : ℕ) (elem : Str)
  | unknown

def shape (typeName : Str) : Shape :=
  if Py.endsWith typeName "*" then .pointer else
  match R.cPrimitives.get? typeName with
  | some p => .primitive p
  | none =>
  match R.typeAliases.get? typeName with
  | some target => .aliasTo target
  | none =>
  match R.arrayTypes.get? typeName with
  | some a => .arrayOf a
  | none =>
  match R.structDefs.get? typeName with
  | some sd => .struct sd
  | none =>
  match parseInlineArray typeName with
  | some (count, elem) => .inlineArray count elem
  | none => .unknown

/-- Where the name has been looked up before each case, and where it was found. -/
theorem shape_cases (t : Str) :
    match R.shape t with
    | .pointer => Py.endsWith t "*" = true
    | .primitive p => Py.endsWith t "*" = false ∧ R.cPrimitives.get? t = some p
    | .aliasTo target => Py.endsWith t "*" = false ∧ R.cPrimitives.get? t = none ∧
      R.typeAliases.get? t = some target
    | .arrayOf a => Py.endsWith t "*" = false ∧ R.cPrimitives.get? t = none ∧
      R.typeAliases.get? t = none ∧ R.arrayTypes.get? t = some a
    | .struct sd => Py.endsWith t "*" = false ∧ R.cPrimitives.get? t = none ∧
      R.typeAliases.get? t = none ∧ R.arrayTypes.get? t = none ∧ R.structDefs.get? t = some sd
    | .inlineArray count elem => Py.endsWith t "*" = false ∧ R.cPrimitives.get? t = none ∧
      R.typeAliases.get? t = none ∧ R.arrayTypes.get? t = none ∧ R.structDefs.get? t = none ∧
      parseInlineArray t = some (count, elem)
    | .unknown => R.structDefs.get? t = none ∧ parseInlineArray t = none := by
  unfold shape
  cases Py.endsWith t "*" with
  | true => rfl
  | false =>
  cases R.cPrimitives.get? t with
  | some p => exact ⟨rfl, rfl⟩
  | none =>
  cases R.typeAliases.get? t with
  | some target => exact ⟨rfl, rfl, rfl⟩
  | none =>
  cases R.arrayTypes.get? t with
  | some a => exact ⟨rfl, rfl, rfl, rfl⟩
  | none =>
  cases R.structDefs.get? t with
  | some sd => exact ⟨rfl, rfl, rfl, rfl, rfl⟩
  | none =>
  cases parseInlineArray t with
  | some e => exact ⟨rfl, rfl, rfl, rfl, rfl, rfl⟩
  | none => exact ⟨rfl, rfl⟩

section ShapeCases

variable {R} {t : Str}

theorem shape_pointer (h : R.shape t = .pointer) : Py.endsWith t "*" = true := by
  have hc := R.shape_cases t
  rwa [h] at hc

theorem shape_primitive {p : Primitive} (h : R.shape t = .primitive p) :
    Py.endsWith t "*" = false ∧ R.cPrimitives.get? t = some p := by
  have hc := R.shape_cases t
  rwa [h] at hc

theorem shape_aliasTo {u : Str} (h : R.shape t = .aliasTo u) :
    Py.endsWith t "*" = false ∧ R.cPrimitives.get? t = none ∧ R.typeAliases.get? t = some u := by
  have hc := R.shape_cases t
  rwa [h] at hc

theorem shape_arrayOf {a : ArrayType} (h : R.shape t = .arrayOf a) :
    Py.endsWith t "*" = false ∧ R.cPrimitives.get? t = none ∧ R.typeAliases.get? t = none ∧
      R.arrayTypes.get? t = some a := by
  have hc := R.shape_cases t
  rwa [h] at hc

theorem shape_struct {sd : StructDef} (h : R.shape t = .struct sd) :
    Py.endsWith t "*" = false ∧ R.cPrimitives.get? t = none ∧ R.typeAliases.get? t = none ∧
      R.arrayTypes.get? t = none ∧ R.structDefs.get? t = some sd := by
  have hc := R.shape_cases t
  rwa [h] at hc

/-- An inline array is in no table. -/
theorem shape_inlineArray {elem : Str} {count : ℕ} (h : R.shape t = .inlineArray count elem) :
    Py.endsWith t "*" = false ∧ R.cPrimitives.get? t = none ∧ R.typeAliases.get? t = none ∧
      R.arrayTypes.get? t = none ∧ R.structDefs.get? t = none ∧
      parseInlineArray t = some (count, elem) := by
  have hc := R.shape_cases t
  rwa [h] at hc

/-- A type of struct shape is a registered struct. -/
theorem shape_struct_mem {sd : StructDef} (h : R.shape t = .struct sd) :
    sd ∈ R.structDefs.values :=
  Dict.mem_values.mpr ⟨t, Dict.get?_eq_some_iff.mp (shape_struct h).2.2.2.2⟩

end ShapeCases

theorem shape_of_inlineArray {t elem : Str} {count : ℕ} (h : Py.endsWith t "*" = false ∧
    R.cPrimitives.get? t = none ∧ R.typeAliases.get? t = none ∧ R.arrayTypes.get? t = none ∧
    R.structDefs.get? t = none ∧ parseInlineArray t = some (count, elem)) :
    R.shape t = .inlineArray count elem := by
  obtain ⟨hs, hp, ha, har, hst, hparse⟩ := h
  rw [shape, hs, if_neg (by decide), hp, ha, har, hst, hparse]

theorem shape_of_primitive {t : Str} {p : Primitive} (hs : Py.endsWith t "*" = false)
    (hp : R.cPrimitives.get? t = some p) : R.shape t = .primitive p := by
  rw [shape, hs, if_neg (by decide), hp]

theorem shape_of_alias {t u : Str} (hs : Py.endsWith t "*" = false)
    (hp : R.cPrimitives.get? t = none) (ha : R.typeAliases.get? t = some u) :
    R.shape t = .aliasTo u := by
  rw [shape, hs, if_neg (by decide), hp, ha]

/-- The type name a resolution goes on with. -/
def Shape.next : Shape → Option Str
  | .aliasTo target => some target
  | .arrayOf a => some a.elementType
  | .inlineArray _ elem => some elem
  | .pointer | .primitive _ | .struct _ | .unknown => none

def next (typeName : Str) : Option Str := (R.shape typeName).next

/-- The three cases in which a resolution goes on. -/
theorem next_cases {t u : Str} (h : R.next t = some u) :
    R.shape t = .aliasTo u ∨ (∃ a, R.shape t = .arrayOf a ∧ a.elementType = u) ∨
      ∃ count, R.shape t = .inlineArray count u := by
  unfold next at h
  cases hs : R.shape t with
  | aliasTo target => rw [hs] at h; exact Or.inl (congrArg _ (Option.some.inj h))
  | arrayOf a => rw [hs] at h; exact Or.inr (Or.inl ⟨a, rfl, Option.some.inj h⟩)
  | inlineArray count elem =>
    rw [hs] at h
    exact Or.inr (Or.inr ⟨count, congrArg _ (Option.some.inj h)⟩)
  | pointer => rw [hs] at h; cases h
  | primitive p => rw [hs] at h; cases h
  | struct sd => rw [hs] at h; cases h
  | unknown => rw [hs] at h; cases h

/-- How many elements of the next type one value of the type holds. -/
def Shape.factor : Shape → ℕ
  | .arrayOf a => a.count
  | .inlineArray count _ => count
  | .pointer | .primitive _ | .aliasTo _ | .struct _ | .unknown => 1

/-- The size at the end of a resolution. -/
def endSize (typeName : Str) : Except Py.Error ℕ :=
  match R.shape typeName with
  | .pointer => R.ptrSize
  | .primitive p => .ok p.size
  | .struct sd => .ok sd.totalSize
  | _ => .error (.runtimeError ("Cannot resolve size for type '" ++ typeName ++ "'"))

/-- The alignment at the end of a resolution. -/
def endAlignment (typeName : Str) : Except Py.Error ℕ :=
  match R.shape typeName with
  | .pointer => R.ptrSize
  | .primitive p => .ok p.size
  | .struct sd => .ok sd.alignment
  | _ => .error (.runtimeError ("Cannot resolve alignment for type '" ++ typeName ++ "'"))

theorem map_one_mul (r : Except Py.Error ℕ) : r.map (1 * ·) = r := by
  cases r <;> simp [Except.map]

theorem resolveSizeIn_eq_fold (n : ℕ) (t : Str) :
    R.resolveSizeIn n t = Chase.fold R.next R.endSize
      (fun t r => r.map ((R.shape t).factor * ·)) (.error .recursionError) n t := by
  induction n generalizing t with
  | zero => rfl
  | succ n ih =>
    rw [resolveSizeIn, Chase.fold, next, endSize, shape]
    split
    · rfl
    cases R.cPrimitives.get? t with
    | some p => rfl
    | none =>
    cases R.typeAliases.get? t with
    | some target => simp only [Shape.next, Shape.factor, ih, map_one_mul]
    | none =>
    cases R.arrayTypes.get? t with
    | some a => simp only [Shape.next, Shape.factor, ih]
    | none =>
    cases R.structDefs.get? t with
    | some sd => rfl
    | none =>
    cases parseInlineArray t with
    | some e => simp only [Shape.next, Shape.factor, ih]
    | none => rfl

theorem resolveAlignmentIn_eq_fold (n : ℕ) (t : Str) :
    R.resolveAlignmentIn n t = Chase.fold R.next R.endAlignment (fun _ r => r)
      (.error .recursionError) n t := by
  induction n generalizing t with
  | zero => rfl
  | succ n ih =>
    rw [resolveAlignmentIn, Chase.fold, next, endAlignment, shape]
    split
    · rfl
    cases R.cPrimitives.get? t with
    | some p => rfl
    | none =>
    cases R.typeAliases.get? t with
    | some target => simp only [Shape.next, ih]
    | none =>
    cases R.arrayTypes.get? t with
    | some a => simp only [Shape.next, ih]
    | none =>
    cases R.structDefs.get? t with
    | some sd => rfl
    | none =>
    cases parseInlineArray t with
    | some e => simp only [Shape.next, ih]
    | none => rfl

/-- The part of `resolve_primitive` that recurses. -/
def nextAlias (typeName : Str) : Option Str :=
  if (R.cPrimitives.get? typeName).isSome then none else R.typeAliases.get? typeName

/-- The outcome at the end of the alias chain. -/
def endPrimitive (typeName : Str) : Except Py.Error Primitive :=
  match R.cPrimitives.get? typeName with
  | some p => .ok p
  | none => .error (.runtimeError ("Cannot resolve '" ++ typeName ++
      "' to a primitive (not in c_primitives or type_aliases)"))

theorem resolvePrimitiveIn_eq_fold (n : ℕ) (t : Str) :
    R.resolvePrimitiveIn n t =
      Chase.fold R.nextAlias R.endPrimitive (fun _ r => r) (.error .recursionError) n t := by
  induction n generalizing t with
  | zero => rfl
  | succ n ih =>
    rw [resolvePrimitiveIn, Chase.fold, nextAlias, endPrimitive]
    cases R.cPrimitives.get? t with
    | some p => rfl
    | none =>
    cases R.typeAliases.get? t with
    | some target => exact ih target
    | none => rfl

-- ════════════════════════════════════════════════════════════════════════
-- The recursion equations
-- ════════════════════════════════════════════════════════════════════════

theorem length_flatMap_inits (ts : List Str) :
    (ts.flatMap List.inits).length = ts.foldr (fun t n => t.length + 1 + n) 0 := by
  induction ts with
  | nil => rfl
  | cons t ts ih => rw [List.flatMap_cons, List.length_append, List.length_inits, ih, List.foldr_cons]

/-- Following table targets and cutting suffixes stays among the beginnings of finitely many
names. -/
theorem exists_closed {nxt : Str → Option Str}
    (h : ∀ s t, nxt s = some t → t ∈ R.targets ∨ t <+: s) (t₀ : Str) :
    ∃ S : Finset Str, t₀ ∈ S ∧ (∀ s ∈ S, ∀ t, nxt s = some t → t ∈ S) ∧
      S.card ≤ R.depthBound t₀ := by
  let S : Finset Str := ((t₀ :: R.targets).flatMap List.inits).toFinset
  have hmem : ∀ u, u ∈ S ↔ ∃ v ∈ t₀ :: R.targets, u <+: v := by
    intro u
    simp [S]
  refine ⟨S, (hmem t₀).mpr ⟨t₀, List.mem_cons_self, List.prefix_refl t₀⟩, ?_, ?_⟩
  · intro s hs t ht
    rw [hmem] at hs ⊢
    rcases h s t ht with htar | hpre
    · exact ⟨t, List.mem_cons_of_mem _ htar, List.prefix_refl t⟩
    · obtain ⟨v, hv, hsv⟩ := hs
      exact ⟨v, hv, hpre.trans hsv⟩
  · refine (List.toFinset_card_le _).trans (le_of_eq ?_)
    exact length_flatMap_inits (t₀ :: R.targets)

/-- So `depthBound` exceeds every chase that stops. -/
theorem adequate_of_targets {nxt : Str → Option Str}
    (h : ∀ s t, nxt s = some t → t ∈ R.targets ∨ t <+: s) : Chase.Adequate nxt R.depthBound := by
  intro t₀ n hn
  obtain ⟨S, ht₀, hclosed, hcard⟩ := R.exists_closed h t₀
  exact (hn.lt_card hclosed ht₀).trans_le hcard

theorem next_targets {s t : Str} (h : R.next s = some t) : t ∈ R.targets ∨ t <+: s := by
  rcases R.next_cases h with hs | ⟨a, hs, rfl⟩ | ⟨count, hs⟩
  · have hget := Dict.get?_eq_some_iff.mp (shape_aliasTo hs).2.2
    exact Or.inl (List.mem_append_left _ (Dict.mem_values.mpr ⟨s, hget⟩))
  · have hget := Dict.get?_eq_some_iff.mp (shape_arrayOf hs).2.2.2
    exact Or.inl (List.mem_append_right _ (List.mem_map_of_mem (Dict.mem_values.mpr ⟨s, hget⟩)))
  · exact Or.inr (parseInlineArray_elem (shape_inlineArray hs).2.2.2.2.2).1

theorem next_adequate : Chase.Adequate R.next R.depthBound :=
  R.adequate_of_targets fun _ _ => R.next_targets

theorem nextAlias_adequate : Chase.Adequate R.nextAlias R.depthBound := by
  apply R.adequate_of_targets
  intro s t h
  unfold nextAlias at h
  split at h
  · cases h
  · exact Or.inl (List.mem_append_left _ (Dict.mem_values.mpr ⟨s, Dict.get?_eq_some_iff.mp h⟩))

theorem resolveSize_eq (t : Str) : R.resolveSize t =
    match R.shape t with
    | .pointer => R.ptrSize
    | .primitive p => .ok p.size
    | .aliasTo target => R.resolveSize target
    | .arrayOf a => (R.resolveSize a.elementType).map (a.count * ·)
    | .struct sd => .ok sd.totalSize
    | .inlineArray count elem => (R.resolveSize elem).map (count * ·)
    | .unknown => .error (.runtimeError ("Cannot resolve size for type '" ++ t ++ "'")) := by
  have h := Chase.fold_unfold R.endSize (fun t r => r.map ((R.shape t).factor * ·))
    (.error .recursionError) R.next_adequate (fun _ => rfl) t
  simp only [← resolveSizeIn_eq_fold] at h
  change R.resolveSize t = _ at h
  rw [h, next, endSize]
  cases R.shape t with
  | aliasTo target => exact map_one_mul _
  | _ => rfl

theorem resolveAlignment_eq (t : Str) : R.resolveAlignment t =
    match R.shape t with
    | .pointer => R.ptrSize
    | .primitive p => .ok p.size
    | .aliasTo target => R.resolveAlignment target
    | .arrayOf a => R.resolveAlignment a.elementType
    | .struct sd => .ok sd.alignment
    | .inlineArray _ elem => R.resolveAlignment elem
    | .unknown => .error (.runtimeError ("Cannot resolve alignment for type '" ++ t ++ "'")) := by
  have h := Chase.fold_unfold R.endAlignment (fun _ r => r) (.error .recursionError)
    R.next_adequate (fun _ => rfl) t
  simp only [← resolveAlignmentIn_eq_fold] at h
  change R.resolveAlignment t = _ at h
  rw [h, next, endAlignment]
  cases R.shape t <;> rfl

theorem resolvePrimitive_eq (t : Str) : R.resolvePrimitive t =
    match R.cPrimitives.get? t with
    | some p => .ok p
    | none =>
    match R.typeAliases.get? t with
    | some target => R.resolvePrimitive target
    | none => .error (.runtimeError ("Cannot resolve '" ++ t ++
        "' to a primitive (not in c_primitives or type_aliases)")) := by
  have h := Chase.fold_unfold R.endPrimitive (fun _ r => r) (.error .recursionError)
    R.nextAlias_adequate (fun _ => rfl) t
  simp only [← resolvePrimitiveIn_eq_fold] at h
  change R.resolvePrimitive t = _ at h
  rw [h, nextAlias, endPrimitive]
  cases R.cPrimitives.get? t with
  | some p => rfl
  | none => cases R.typeAliases.get? t <;> rfl

-- ════════════════════════════════════════════════════════════════════════
-- Names that resolve
-- ════════════════════════════════════════════════════════════════════════

/-- `resolve_size` succeeds. -/
def Resolves (typeName : Str) : Prop := ∃ n, R.resolveSize typeName = .ok n

variable {R}

theorem not_resolves_of_error {t : Str} {e : Py.Error} (h : R.resolveSize t = .error e) :
    ¬ R.Resolves t := by
  rintro ⟨n, hn⟩
  rw [h] at hn
  cases hn

/-- One step of a resolution that succeeds: the next name resolves, to the same alignment. -/
theorem resolveSize_of_next {t u : Str} {n : ℕ} (hu : R.next t = some u)
    (h : R.resolveSize t = .ok n) : ∃ m, R.resolveSize u = .ok m ∧ (R.shape t).factor * m = n := by
  rw [resolveSize_eq] at h
  rcases R.next_cases hu with hs | ⟨a, hs, rfl⟩ | ⟨count, hs⟩
  · rw [hs] at h ⊢
    exact ⟨n, h, Nat.one_mul n⟩
  · rw [hs] at h ⊢
    exact Py.map_eq_ok_iff.mp h
  · rw [hs] at h ⊢
    exact Py.map_eq_ok_iff.mp h

theorem resolveAlignment_of_next {t u : Str} (hu : R.next t = some u) :
    R.resolveAlignment t = R.resolveAlignment u := by
  rw [resolveAlignment_eq]
  rcases R.next_cases hu with hs | ⟨a, hs, rfl⟩ | ⟨count, hs⟩ <;> rw [hs]

theorem Resolves.of_next {t u : Str} (h : R.Resolves t) (hu : R.next t = some u) : R.Resolves u := by
  obtain ⟨n, hn⟩ := h
  obtain ⟨m, hm, _⟩ := resolveSize_of_next hu hn
  exact ⟨m, hm⟩

theorem resolves_of_next {t u : Str} (hu : R.next t = some u) (h : R.Resolves u) : R.Resolves t := by
  obtain ⟨n, hn⟩ := h
  rw [Resolves, resolveSize_eq]
  rcases R.next_cases hu with hs | ⟨a, hs, rfl⟩ | ⟨count, hs⟩
  · exact ⟨n, by rw [hs]; exact hn⟩
  · exact ⟨a.count * n, by rw [hs]; simp only [hn, Except.map]⟩
  · exact ⟨count * n, by rw [hs]; simp only [hn, Except.map]⟩

theorem resolves_of_pointer {t : Str} {p : Primitive} (hs : R.shape t = .pointer)
    (hp : R.cPrimitives.get? "ptr" = some p) : R.Resolves t :=
  ⟨p.size, by rw [resolveSize_eq, hs]; simp only [ptrSize, hp]⟩

theorem resolves_of_primitive {t : Str} {p : Primitive} (hs : R.shape t = .primitive p) :
    R.Resolves t :=
  ⟨p.size, by rw [resolveSize_eq, hs]⟩

theorem resolves_of_struct {t : Str} {sd : StructDef} (hs : R.shape t = .struct sd) : R.Resolves t :=
  ⟨sd.totalSize, by rw [resolveSize_eq, hs]⟩

theorem Resolves.stops {t : Str} (h : R.Resolves t) : Chase.Stops R.next t := by
  obtain ⟨n, hn⟩ := h
  rw [resolveSize, resolveSizeIn_eq_fold] at hn
  exact Chase.stops_of_fold_eq _ _ _ (fun _ => rfl) hn (by simp)

/-- Induction along the resolution of a name. -/
@[elab_as_elim]
theorem Resolves.induct {P : Str → Prop} {t : Str} (h : R.Resolves t)
    (hend : ∀ t, R.Resolves t → R.next t = none → P t)
    (hnext : ∀ t u, R.Resolves t → R.next t = some u → R.Resolves u → P u → P t) : P t := by
  induction h.stops with
  | here hn => exact hend _ h hn
  | move hn _ ih =>
    have hu := h.of_next hn
    exact hnext _ _ h hn hu (ih hu)

/-- What a name that resolves and leads nowhere can be. -/
theorem Resolves.end_cases {t : Str} (h : R.Resolves t) (hn : R.next t = none) :
    (R.shape t = .pointer ∧ ∃ p, R.cPrimitives.get? "ptr" = some p) ∨
      (∃ p, R.shape t = .primitive p) ∨ ∃ sd, R.shape t = .struct sd := by
  obtain ⟨n, h⟩ := h
  rw [resolveSize_eq] at h
  unfold next at hn
  cases hs : R.shape t with
  | pointer =>
    rw [hs] at h
    simp only [ptrSize] at h
    cases hp : R.cPrimitives.get? "ptr" with
    | none => rw [hp] at h; cases h
    | some p => exact Or.inl ⟨rfl, p, rfl⟩
  | primitive p => exact Or.inr (Or.inl ⟨p, rfl⟩)
  | struct sd => exact Or.inr (Or.inr ⟨sd, rfl⟩)
  | aliasTo target => rw [hs] at hn; cases hn
  | arrayOf a => rw [hs] at hn; cases hn
  | inlineArray count elem => rw [hs] at hn; cases hn
  | unknown => rw [hs] at h; cases h

theorem Resolves.alignment {t : Str} (h : R.Resolves t) : ∃ a, R.resolveAlignment t = .ok a := by
  refine h.induct (fun t ht hn => ?_) (fun t u _ hu _ ih => ?_)
  · rw [resolveAlignment_eq]
    rcases ht.end_cases hn with ⟨hs, p, hp⟩ | ⟨p, hs⟩ | ⟨sd, hs⟩
    · exact ⟨p.size, by rw [hs]; simp only [ptrSize, hp]⟩
    · exact ⟨p.size, by rw [hs]⟩
    · exact ⟨sd.alignment, by rw [hs]⟩
  · rwa [resolveAlignment_of_next hu]

-- ════════════════════════════════════════════════════════════════════════
-- Names of primitives
-- ════════════════════════════════════════════════════════════════════════

/-- Where `resolve_primitive` ends: at once, or where the alias target does. -/
theorem resolvePrimitive_cases {t : Str} {p : Primitive} (h : R.resolvePrimitive t = .ok p) :
    R.cPrimitives.get? t = some p ∨
      R.cPrimitives.get? t = none ∧
        ∃ u, R.typeAliases.get? t = some u ∧ R.resolvePrimitive u = .ok p := by
  rw [resolvePrimitive_eq] at h
  cases hp : R.cPrimitives.get? t with
  | some q =>
    rw [hp] at h
    exact Or.inl (congrArg some (Except.ok.inj h))
  | none =>
    cases ha : R.typeAliases.get? t with
    | some u =>
      rw [hp, ha] at h
      exact Or.inr ⟨rfl, u, rfl, h⟩
    | none =>
      rw [hp, ha] at h
      cases h

/-- Induction along an alias chain that ends in a primitive. -/
@[elab_as_elim]
theorem resolvePrimitive_induct {P : Str → Prop} {p : Primitive} {t : Str}
    (h : R.resolvePrimitive t = .ok p) (hprim : ∀ t, R.cPrimitives.get? t = some p → P t)
    (halias : ∀ t u, R.cPrimitives.get? t = none → R.typeAliases.get? t = some u →
      R.resolvePrimitive u = .ok p → P u → P t) : P t := by
  have hstops : Chase.Stops R.nextAlias t := by
    rw [resolvePrimitive, resolvePrimitiveIn_eq_fold] at h
    exact Chase.stops_of_fold_eq _ _ _ (fun _ => rfl) h (by simp)
  induction hstops with
  | here hn =>
    rcases resolvePrimitive_cases h with hp | ⟨hp, u, ha, _⟩
    · exact hprim _ hp
    · rw [nextAlias, hp, ha] at hn
      cases hn
  | move hn _ ih =>
    rcases resolvePrimitive_cases h with hp | ⟨hp, u, ha, hu⟩
    · exact hprim _ hp
    · rw [nextAlias, hp, ha] at hn
      obtain rfl := Option.some.inj hn
      exact halias _ _ hp ha hu (ih hu)

theorem resolvePrimitive_mem {t : Str} {p : Primitive} (h : R.resolvePrimitive t = .ok p) :
    p ∈ R.cPrimitives.values :=
  resolvePrimitive_induct h
    (fun t hp => Dict.mem_values.mpr ⟨t, Dict.get?_eq_some_iff.mp hp⟩) fun _ _ _ _ _ ih => ih

end Wali.TypeRegistry
