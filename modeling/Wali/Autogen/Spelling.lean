import Wali.Autogen.Docs
import Wali.Autogen.Libc
import Wali.Wit.Types

/-!
# The spelling of pointer types

Four functions of the generators take a pointer type apart: `_field_type_to_wit`,
`transform_ptr_arg`, `_ptr_anonymize` and `_field_type_display`. Here they are compared on the
spellings of one type, with and without white space in front of the stars.
-/

namespace Wali.Spelling

open Py (Str)
open Wit (toWit witArg ptrs fieldTypeToWit)

/-- The name of a type that is no pointer: something is in it, and it ends in neither white space nor
a star. -/
structure IsBase (base : Str) : Prop where
  ne_nil : base ≠ []
  noBlank : Py.Trimmed Py.isSpace base
  noStar : Py.Trimmed (· == '*') base

/-- The pointer type with `gap` between its base and its stars. -/
def spelled (base gap : Str) (k : ℕ) : Str := base ++ gap ++ List.replicate k '*'

/-- White space in front of the stars does not change what is made of the type, and the two names
that the interface gives to it are one. -/
structure SameTranslation (R : TypeRegistry) (base gap : Str) (k : ℕ) : Prop where
  field : fieldTypeToWit R (spelled base gap k) = fieldTypeToWit R (spelled base [] k)
  arg : witArg (spelled base gap k) = witArg (spelled base [] k)
  anonymize : Libc.ptrAnonymize R [spelled base gap k] = Libc.ptrAnonymize R [spelled base [] k]
  /-- A type that has an entry is shown as a link to it and its stars. -/
  display : Docs.isDocumentedType R base = true →
    Docs.fieldTypeDisplay R (spelled base gap k) = Docs.typeLink R base ++ List.replicate k '*'
  names : fieldTypeToWit R (spelled base gap k) = .ok (.ident (witArg (spelled base gap k)))

section Parts

variable {R : TypeRegistry} {base gap : Str} {k : ℕ}

theorem endsWith_spelled (hk : 0 < k) : Py.endsWith (spelled base gap k) "*" = true :=
  Py.endsWith_append_replicate _ '*' hk

theorem trimmed_star_of_blank (h : Py.Trimmed (· == '*') base) (hgap : Py.Blank gap) :
    Py.Trimmed (· == '*') (base ++ gap) := by
  by_cases hnil : gap = []
  · rw [hnil, List.append_nil]
    exact h
  · refine Py.Trimmed.append (Py.trimmed_of_forall fun c hc => ?_) hnil
    by_contra hstar
    rw [Bool.not_eq_false, beq_iff_eq] at hstar
    exact absurd (hgap c hc) (by rw [hstar]; decide)

theorem rstripChar_append_stars (h : Py.Trimmed (· == '*') base) :
    Py.rstripChar '*' (base ++ List.replicate k '*') = base :=
  h.rdropWhile_append fun c hc => by rw [List.eq_of_mem_replicate hc]; rfl

theorem IsBase.strip_spelled (h : IsBase base) (hk : 0 < k) :
    Py.strip (spelled base gap k) = base.dropWhile Py.isSpace ++ gap ++ List.replicate k '*' := by
  have hstars : Py.Trimmed Py.isSpace (List.replicate k '*') :=
    Py.trimmed_of_forall fun c hc => by rw [List.eq_of_mem_replicate hc]; decide
  have hne : List.replicate k '*' ≠ [] := by simp [hk.ne']
  rw [spelled, (hstars.append hne).strip (by simp [hk.ne']), List.append_assoc,
    h.noBlank.dropWhile_append h.ne_nil, List.append_assoc]

theorem IsBase.fieldTypeToWit_spelled (h : IsBase base) (hgap : Py.Blank gap) (hk : 0 < k) :
    fieldTypeToWit R (spelled base gap k) = .ok (.ident (ptrs k ++ toWit (base.dropWhile Py.isSpace))) := by
  rw [Wit.fieldTypeToWit_of_ptr (endsWith_spelled hk), Wit.ptrName, spelled,
    rstripChar_append_stars (trimmed_star_of_blank h.noStar hgap), h.noBlank.strip_append h.ne_nil hgap,
    List.length_append, List.length_replicate, Nat.add_sub_cancel_left]

/-- The start of the name is the start of the base. -/
theorem startsWith_strip_spelled (h : IsBase base) (hgap : Py.Blank gap) (hk : 0 < k) :
    Py.startsWith (toWit (Py.strip (spelled base gap k))) "fn(" =
      Py.startsWith (base.dropWhile Py.isSpace) "fn(" := by
  have hrest : ∃ c rest, gap ++ List.replicate k '*' = c :: rest ∧ c ∉ ("fn(" : Str) := by
    obtain ⟨n, rfl⟩ := Nat.exists_eq_succ_of_ne_zero hk.ne'
    cases gap with
    | nil => exact ⟨'*', _, rfl, by decide⟩
    | cons c gap =>
      refine ⟨c, _, rfl, fun hc => absurd (hgap c List.mem_cons_self) ?_⟩
      exact Py.forall_mem_of_all (p := fun d => ¬ Py.isSpace d = true) (by decide) c hc
  obtain ⟨c, rest, hcons, hc⟩ := hrest
  rw [Wit.startsWith_toWit (Py.forall_mem_of_all (by decide)), h.strip_spelled hk, List.append_assoc, hcons,
    Bool.eq_iff_iff, Py.startsWith_iff, Py.startsWith_iff, Py.prefix_append_cons_iff hc]

/-- The white space stays in the name of an argument, as hyphens. -/
theorem IsBase.witArg_spelled (h : IsBase base) (hgap : Py.Blank gap) (hk : 0 < k)
    (hfn : Py.startsWith (base.dropWhile Py.isSpace) "fn(" = false) :
    witArg (spelled base gap k) = ptrs k ++ toWit (base.dropWhile Py.isSpace ++ gap) := by
  have hfn' : SyscallArg.isFnPtr (toWit (Py.strip (spelled base gap k))) = false :=
    (startsWith_strip_spelled h hgap hk).trans hfn
  have htrim : Py.Trimmed (· == '*') (base.dropWhile Py.isSpace ++ gap) := by
    have hbase := h.noStar
    rw [← List.takeWhile_append_dropWhile (p := Py.isSpace) (l := base)] at hbase
    exact trimmed_star_of_blank hbase.of_append hgap
  rw [witArg, Wit.transformPtrArg, hfn', if_neg Bool.false_ne_true, Wit.rstripChar_toWit,
    h.strip_spelled hk, rstripChar_append_stars htrim, Wit.length_toWit, Wit.length_toWit,
    List.length_append, List.length_replicate, Nat.add_sub_cancel_left]

theorem IsBase.witArg_function (h : IsBase base) (hgap : Py.Blank gap) (hk : 0 < k)
    (hfn : Py.startsWith (base.dropWhile Py.isSpace) "fn(" = true) :
    witArg (spelled base gap k) = "ptr-func" :=
  if_pos ((startsWith_strip_spelled h hgap hk).trans hfn)

/-- Every character of white space counts as a star. -/
theorem IsBase.fieldTypeDisplay_spelled (h : IsBase base) (hgap : Py.Blank gap) (hk : 0 < k) :
    Docs.fieldTypeDisplay R (spelled base gap k) =
      if Docs.isDocumentedType R (base.dropWhile Py.isSpace) then
        Docs.typeLink R (base.dropWhile Py.isSpace) ++
          List.replicate ((spelled base gap k).length - (base.dropWhile Py.isSpace).length) '*'
      else "`" ++ spelled base gap k ++ "`" := by
  rw [Docs.fieldTypeDisplay, if_pos (endsWith_spelled hk)]
  simp only [spelled, rstripChar_append_stars (trimmed_star_of_blank h.noStar hgap),
    h.noBlank.strip_append h.ne_nil hgap]

/-- A link to the base has the base in front, as it is spelled. -/
theorem IsBase.strip_of_display (h : IsBase base) (hgap : Py.Blank gap) (hk : 0 < k)
    (hdoc : Docs.isDocumentedType R base = true)
    (hd : Docs.fieldTypeDisplay R (spelled base gap k) = Docs.typeLink R base ++ List.replicate k '*') :
    base.dropWhile Py.isSpace = base := by
  obtain ⟨b, rest, rfl⟩ := List.exists_cons_of_ne_nil h.ne_nil
  obtain ⟨c, rest', hdrop⟩ := List.exists_cons_of_ne_nil (h.noBlank.dropWhile_ne_nil h.ne_nil)
  have hc : Py.isSpace c = false := by
    have hhead := List.head?_dropWhile_not Py.isSpace (b :: rest)
    rw [hdrop] at hhead
    simpa using hhead
  rw [h.fieldTypeDisplay_spelled hgap hk, hdrop, Docs.typeLink, Docs.typeLink, if_pos hdoc] at hd
  split at hd
  · have hcb : c = b := by
      have hsecond := congrArg (·[1]?) hd
      simpa using hsecond
    rw [List.dropWhile_cons_of_neg]
    rw [← hcb, hc]
    exact Bool.false_ne_true
  · have hfirst := congrArg (·[0]?) hd
    simp at hfirst

end Parts

/-- **The spellings of a pointer type**: white space in front of the stars always changes the
translation. Without it the two WIT names of the type are one unless the base is a function type, and
the documentation shows the link unless the entry is under a name that starts with white space. -/
theorem sameTranslation_iff (R : TypeRegistry) {base gap : Str} {k : ℕ} (h : IsBase base)
    (hgap : Py.Blank gap) (hk : 0 < k) :
    SameTranslation R base gap k ↔
      gap = [] ∧ Py.startsWith (Py.strip base) "fn(" = false ∧
      (Docs.isDocumentedType R base = true → Py.strip base = base) := by
  rw [h.noBlank.strip h.ne_nil]
  constructor
  · intro hs
    have hnames := hs.names
    rw [h.fieldTypeToWit_spelled hgap hk] at hnames
    have hfn : Py.startsWith (base.dropWhile Py.isSpace) "fn(" = false := by
      by_contra hfn
      rw [Bool.not_eq_false] at hfn
      rw [h.witArg_function hgap hk hfn] at hnames
      -- The bracket is in the name of the field only.
      obtain ⟨rest, hrest⟩ := Py.startsWith_iff.mp hfn
      have hmem : '(' ∈ toWit (base.dropWhile Py.isSpace) := by
        rw [← hrest]
        simp [toWit, Py.replaceChar]
      have heq := Wit.WitType.ident.inj (Except.ok.inj hnames)
      exact absurd (heq ▸ List.mem_append_right _ hmem) (by decide)
    rw [h.witArg_spelled hgap hk hfn] at hnames
    have hlen := congrArg List.length (List.append_cancel_left
      (Wit.WitType.ident.inj (Except.ok.inj hnames)))
    rw [Wit.length_toWit, Wit.length_toWit, List.length_append] at hlen
    exact ⟨List.eq_nil_of_length_eq_zero (by omega), hfn, fun hdoc => h.strip_of_display hgap hk hdoc (hs.display hdoc)⟩
  · rintro ⟨rfl, hfn, hstrip⟩
    refine ⟨rfl, rfl, rfl, fun hdoc => ?_, ?_⟩
    · rw [h.fieldTypeDisplay_spelled hgap hk, hstrip hdoc, if_pos hdoc, spelled, List.append_nil,
        List.length_append, List.length_replicate, Nat.add_sub_cancel_left]
    · rw [h.fieldTypeToWit_spelled hgap hk, h.witArg_spelled hgap hk hfn, List.append_nil]

theorem sameTranslation_iff_iovec :
    IsBase "struct iovec" ∧
      SameTranslation TypeRegistry.shippedBare "struct iovec" [] 2 := by
  have h : IsBase "struct iovec" := ⟨by decide, by simp [Py.Trimmed]; decide, by simp [Py.Trimmed]⟩
  have hblank : Py.Blank [] := by simp [Py.Blank]
  refine ⟨h, (sameTranslation_iff TypeRegistry.shippedBare h hblank (by decide)).mpr ⟨rfl, by decide, ?_⟩⟩
  intro _
  decide

/-- With a blank the argument has a name of its own, the pointer to a primitive becomes `void*`, and
the documentation shows one star too many. -/
theorem blank_before_star :
    fieldTypeToWit TypeRegistry.shippedBare "long *" = .ok (.ident "ptr-long") ∧
    witArg "long *" = "ptr-long-" ∧ witArg "long*" = "ptr-long" ∧
    Libc.ptrAnonymize TypeRegistry.shippedBare ["long *", "long*"] = (["void*", "long*"] : List Str) ∧
    Docs.fieldTypeDisplay TypeRegistry.shippedBare "size_t *" = "[size_t](types.md#size_t)**" ∧
    ¬ SameTranslation TypeRegistry.shippedBare "long" " " 1 := by
  refine ⟨by decide +kernel, by decide +kernel, by decide +kernel, by decide +kernel, by decide +kernel, fun h => ?_⟩
  exact absurd h.arg (by decide +kernel)

end Wali.Spelling
