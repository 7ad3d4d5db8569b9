import Wali.Autogen.Pages
import Wali.Markdown
import Wali.Paths

/-!
# The links of the documentation

Every Markdown link that the generator writes leads to a page that it writes, and to an entry of the
page of types that is there; every page of a call is linked from the index. The texts that are not
generated (templates, overrides, names) must not contain half a link or half a placeholder. The links
that a template has in HTML, such as the one to the manual page of a syscall, are not looked at.
-/

namespace Wali.Docs

open Py (Str Dict)
open Py.Fill (Piece Quiet IsKey)
open Markdown (links anchors LinksTo)

-- ════════════════════════════════════════════════════════════════════════
-- Where a link leads
-- ════════════════════════════════════════════════════════════════════════

/-- The file and the anchor that a link on a page means. -/
def follow (page target : Str) : List Str × Str :=
  (Paths.walk (page.splitOn '/').dropLast ((target.takeWhile (· != '#')).splitOn '/'),
    (target.dropWhile (· != '#')).drop 1)

/-- The link leads to one of the files, and to an anchor in it if it names one. -/
def Leads (files : List (Str × Str)) (page target : Str) : Prop :=
  ∃ f ∈ files, (follow page target).1 = f.1.splitOn '/' ∧
    ((follow page target).2 = [] ∨ (follow page target).2 ∈ anchors f.2)

/-- The picture of a badge. -/
def IsBadge (target : Str) : Prop := ("https://img.shields.io/badge/" : Str) <+: target

/-- A link from an override. -/
def Authored (overrides : Dict Str Override) (target : Str) : Prop :=
  ∃ o ∈ overrides.values, target ∈ links o.description ∨ target ∈ links o.notes

-- ════════════════════════════════════════════════════════════════════════
-- Conditions
-- ════════════════════════════════════════════════════════════════════════

/-- None of some characters is in a text. -/
def free (cs s : Str) : Bool := s.all fun c => !cs.contains c

/-- The types that have an entry which links lead to. -/
def documentedNames (R : TypeRegistry) : List Str :=
  R.structDefs.keys ++ R.typeAliases.keys ++ R.arrayTypes.keys

structure PlainTypes (R : TypeRegistry) : Prop where
  names : ∀ k ∈ documentedNames R, free "[]()\"" k = true
  primitives : ∀ k ∈ R.cPrimitives.keys, free "(" k = true
  targets : ∀ u ∈ R.typeAliases.values, free "(" u = true
  elements : ∀ a ∈ R.arrayTypes.values, free "(" a.elementType = true
  fields : ∀ sd ∈ R.structDefs.values, ∀ f ∈ sd.fields, free "(" f.name = true ∧ free "(" f.typeName = true

structure PlainCall (name : Str) (args : List SyscallArg) (argsId : List Str) : Prop where
  name : free "[]()/#" name = true
  args : ∀ a ∈ args, free "[]" a = true
  argsId : ∀ i ∈ argsId, free "[]" i = true

/-- A text with which neither a placeholder nor a link begins that ends elsewhere, and whose links are
as they should be. -/
def Part (P : Str → Prop) (u : Str) : Prop := Quiet u ∧ LinksTo P u

/-- An override whose links end where it does. -/
structure Override.Fine (o : Override) : Prop where
  description : Part (· ∈ links o.description) o.description
  notes : Part (· ∈ links o.notes) o.notes

/-- A template's text has no links and no other placeholders, and its placeholders are filled. -/
def pieceFine (keys : List Str) : Piece → Bool
  | .text s => Markdown.inert '[' '[' s && Markdown.inert ']' '(' s
  | .slot key => keys.contains key

def syscallKeys : List Str := ["NAME", "BADGES", "DESCRIPTION", "C_SIGNATURE", "WASM_SIGNATURE", "NOTES"]

def auxKeys : List Str := ["NAME", "DESCRIPTION", "C_SIGNATURE", "WASM_SIGNATURE", "RETURN_TYPE", "NOTES"]

def specificationKeys : List Str := ["NUM_SYSCALLS", "NUM_AUX", "SYSCALL_TABLE", "AUX_TABLE"]

structure Templates.Fine (t : Templates) : Prop where
  syscall : t.syscall.all (pieceFine syscallKeys) = true
  aux : t.aux.all (pieceFine auxKeys) = true
  specification : t.specification.all (pieceFine specificationKeys) = true
  syscallTable : Piece.slot "SYSCALL_TABLE" ∈ t.specification
  auxTable : Piece.slot "AUX_TABLE" ∈ t.specification

-- ════════════════════════════════════════════════════════════════════════
-- Texts without certain characters
-- ════════════════════════════════════════════════════════════════════════

section Free

variable {cs s u v : Str} {c : Char}

theorem free_iff : free cs s = true ↔ ∀ c ∈ s, c ∉ cs := by
  simp [free]

theorem not_mem_of_free (h : free cs s = true) (hc : cs.contains c = true) : c ∉ s :=
  fun hs => free_iff.mp h c hs (List.contains_iff_mem.mp hc)

theorem free_append : free cs (u ++ v) = true ↔ free cs u = true ∧ free cs v = true := by
  rw [free, List.all_append, Bool.and_eq_true]
  rfl

theorem free_of_subset (h : free cs s = true) (hsub : u ⊆ s) : free cs u = true :=
  free_iff.mpr fun c hc => free_iff.mp h c (hsub hc)

theorem free_of_chars {cs' : Str} (h : free cs' s = true) (hsub : cs ⊆ cs') : free cs s = true :=
  free_iff.mpr fun c hc hcs => free_iff.mp h c hc (hsub hcs)

theorem free_join {sep : Str} {parts : List Str} (hsep : free cs sep = true)
    (h : ∀ p ∈ parts, free cs p = true) : free cs (Py.join sep parts) = true := by
  refine free_iff.mpr fun c hc => ?_
  rcases Py.mem_join hc with hc | ⟨p, hp, hc⟩
  · exact free_iff.mp hsep c hc
  · exact free_iff.mp (h p hp) c hc

theorem free_natStr (h : cs.all (fun c => !c.isDigit) = true) (n : ℕ) : free cs (Py.natStr n) = true := by
  refine free_iff.mpr fun c hc hcs => ?_
  have hd := List.all_eq_true.mp h c hcs
  rw [Py.isDigit_of_mem_natStr hc] at hd
  cases hd

theorem free_intStr (h : cs.all (fun c => !c.isDigit) = true) (hminus : cs.contains '-' = false) (n : ℤ) :
    free cs (Py.intStr n) = true := by
  cases n with
  | ofNat n => exact free_natStr h n
  | negSucc n =>
    refine free_append (u := ['-']).mpr ⟨?_, free_natStr h (n + 1)⟩
    simpa [free] using hminus

theorem mem_of_mem_aliasAnchor {name : Str} (h : c ∈ aliasAnchor name) : c ∈ name ∨ c = '_' := by
  have hstripped := (List.dropWhile_suffix _).subset ((List.rdropWhile_prefix _ _).subset h)
  obtain ⟨d, hd, rfl⟩ := List.mem_map.mp (List.mem_of_mem_filter hstripped)
  split
  · exact .inr rfl
  · exact .inl hd

theorem free_aliasAnchor {name : Str} (h : free cs name = true) (hc : cs.contains '_' = false) :
    free cs (aliasAnchor name) = true := by
  refine free_iff.mpr fun c hmem => ?_
  rcases mem_of_mem_aliasAnchor hmem with hn | rfl
  · exact free_iff.mp h c hn
  · simpa using hc

end Free

-- ════════════════════════════════════════════════════════════════════════
-- Parts of pages
-- ════════════════════════════════════════════════════════════════════════

section Parts

variable {P Q : Str → Prop} {u v : Str}

theorem Part.mono (hPQ : ∀ x, P x → Q x) (h : Part P u) : Part Q u := ⟨h.1, h.2.mono hPQ⟩

theorem Part.append (hu : Part P u) (hv : Part P v) : Part P (u ++ v) := ⟨hu.1.append hv.1, hu.2.append hv.2⟩

theorem part_of_free (h : free "[]" u = true) : Part P u :=
  ⟨Py.Fill.quiet_of_not_mem (not_mem_of_free h rfl), Markdown.only_of_not_mem (not_mem_of_free h rfl)⟩

theorem Part.join {sep : Str} (hsep : Part P sep) {parts : List Str} (h : ∀ p ∈ parts, Part P p) :
    Part P (Py.join sep parts) :=
  ⟨hsep.1.join fun p hp => (h p hp).1, hsep.2.join fun p hp => (h p hp).2⟩

theorem part_link {label target : Str} (hl : free "[]" label = true) (ht : free "[])" target = true)
    (hP : P target) : Part P ("[" ++ label ++ "](" ++ target ++ ")") := by
  refine ⟨?_, Markdown.linksTo_link (not_mem_of_free hl rfl) (not_mem_of_free ht rfl)
    (not_mem_of_free ht rfl) hP⟩
  have hrest : '[' ∉ label ++ ("](" ++ (target ++ ")")) := by
    simp [not_mem_of_free hl (c := '[') rfl, not_mem_of_free ht (c := '[') rfl]
  simpa using Py.Fill.quiet_cons_of_not_mem '[' hrest (by simp)

theorem quiet_of_inert (h : Markdown.inert '[' '[' u = true) : Quiet u := by
  induction u with
  | nil => exact Py.Fill.quiet_of_not_mem List.not_mem_nil
  | cons c u ih =>
    cases u with
    | nil =>
      have hc : c ≠ '[' := bne_iff_ne.mp h
      exact Py.Fill.quiet_of_not_mem (by simpa using hc.symm)
    | cons d u =>
      rw [Markdown.inert, Bool.and_eq_true] at h
      have hrest := ih h.2
      refine ⟨fun hin => ?_, by simpa using hrest.last⟩
      rcases List.infix_cons_iff.mp hin with hpre | hin
      · obtain ⟨rfl, rfl⟩ : '[' = c ∧ '[' = d := by simpa using hpre
        simp at h
      · exact hrest.inside hin

theorem fill_eq {ps : List Piece} {values : List (Str × Str)}
    (hps : ps.all (pieceFine (values.map Prod.fst)) = true) (hkeys : (values.map Prod.fst).all (free "[]") = true)
    (hvalues : ∀ e ∈ values, Part P e.2) :
    Py.Fill.fill values (Py.Fill.source ps) = ps.flatMap (Piece.filled values) := by
  have hkey : ∀ k ∈ values.map Prod.fst, IsKey k := fun k hk c hc => by
    simpa using free_iff.mp (List.all_eq_true.mp hkeys k hk) c hc
  refine Py.Fill.fill_source (fun p hp => ?_) fun e he =>
    ⟨hkey e.1 (List.mem_map_of_mem he), (hvalues e he).1⟩
  have hfine := List.all_eq_true.mp hps p hp
  cases p with
  | text s => exact quiet_of_inert (Bool.and_eq_true_iff.mp hfine).1
  | slot key => exact hkey key (List.contains_iff_mem.mp hfine)

/-- A filled template, if its values are as they should be. -/
theorem linksTo_fill {ps : List Piece} {values : List (Str × Str)}
    (hps : ps.all (pieceFine (values.map Prod.fst)) = true) (hkeys : (values.map Prod.fst).all (free "[]") = true)
    (hvalues : ∀ e ∈ values, Part P e.2) : LinksTo P (Py.Fill.fill values (Py.Fill.source ps)) := by
  rw [fill_eq hps hkeys hvalues]
  refine Markdown.Only.flatMap fun p hp => ?_
  have hfine := List.all_eq_true.mp hps p hp
  cases p with
  | text s => exact Markdown.only_of_inert (Bool.and_eq_true_iff.mp hfine).2
  | slot key =>
    cases hv : values.lookup key with
    | none =>
      obtain ⟨e, he, rfl⟩ := List.mem_map.mp (List.contains_iff_mem.mp hfine)
      exact absurd (List.lookup_eq_none_iff.mp hv e he) (by simp)
    | some value =>
      obtain ⟨l₁, l₂, hsplit, -⟩ := List.lookup_eq_some_iff.mp hv
      rw [Piece.filled, hv]
      exact (hvalues (key, value) (by simp [hsplit])).2

theorem infix_filled {ps : List Piece} {values : List (Str × Str)} {key value : Str}
    (hslot : Piece.slot key ∈ ps) (hv : values.lookup key = some value) :
    value <:+: ps.flatMap (Piece.filled values) := by
  obtain ⟨xs, ys, rfl⟩ := List.append_of_mem hslot
  rw [List.flatMap_append, List.flatMap_cons, Piece.filled, hv]
  exact List.infix_append' _ _ _

end Parts

-- ════════════════════════════════════════════════════════════════════════
-- The page of types
-- ════════════════════════════════════════════════════════════════════════

/-- A link to an entry of the page of types. -/
def ToType (R : TypeRegistry) (relativeLink target : Str) : Prop :=
  ∃ k ∈ documentedNames R, target = relativeLink ++ "#" ++ aliasAnchor k

section Types

variable {R : TypeRegistry} {P : Str → Prop} {k t u : Str}

theorem isDocumentedType_iff : isDocumentedType R k = true ↔ k ∈ documentedNames R := by
  simp only [isDocumentedType, documentedNames, Bool.or_eq_true, Option.isSome_iff_exists,
    ← Dict.mem_keys_iff, List.mem_append]

theorem part_typeLink (hR : PlainTypes R) (hk : k ∈ documentedNames R) {relativeLink : Str}
    (hrel : free "[])" relativeLink = true) : Part (ToType R relativeLink) (typeLink R k relativeLink) := by
  rw [typeLink, if_pos (isDocumentedType_iff.mpr hk)]
  have hfree := hR.names k hk
  have htarget : free "[])" (relativeLink ++ "#" ++ aliasAnchor k) = true :=
    free_append.mpr ⟨free_append.mpr ⟨hrel, rfl⟩, free_aliasAnchor (free_of_chars hfree (by decide)) rfl⟩
  have hlink : Part (ToType R relativeLink) ("[" ++ k ++ "](" ++ (relativeLink ++ "#" ++ aliasAnchor k) ++ ")") :=
    part_link (free_of_chars hfree (by decide)) htarget ⟨k, hk, rfl⟩
  simpa only [List.append_assoc] using hlink

/-- A text without parentheses, if it does not end in a bracket. -/
theorem linksTo_of_free (hu : free "(" u = true) {v : Str} (hv : free "(" v = true)
    (hlast : v.getLast?.any (· != ']') = true) : LinksTo P (u ++ v) := by
  refine Markdown.only_of_not_mem_second (not_mem_of_free (free_append.mpr ⟨hu, hv⟩) rfl) ?_
  rw [List.getLast?_append]
  cases hl : v.getLast? with
  | none => simp [hl] at hlast
  | some c => simpa [hl] using hlast

/-- A text without closing brackets. -/
theorem linksTo_of_unclosed (h : free "]" u = true) : LinksTo P u :=
  Markdown.only_of_not_mem (not_mem_of_free h rfl)

theorem linksTo_natStr (n : ℕ) : LinksTo P (Py.natStr n) := linksTo_of_unclosed (free_natStr rfl n)

/-- A type that is only spelled out. -/
theorem linksTo_quoted (h : free "(" t = true) : LinksTo P ("`" ++ t ++ "`") :=
  linksTo_of_free (free_append.mpr ⟨rfl, h⟩) rfl rfl

theorem linksTo_typeLink (hR : PlainTypes R) (ht : free "(" t = true) :
    LinksTo (ToType R "types.md") (typeLink R t) := by
  by_cases hk : t ∈ documentedNames R
  · exact (part_typeLink hR hk rfl).2
  · rw [typeLink, if_neg fun h => hk (isDocumentedType_iff.mp h)]
    exact linksTo_quoted ht

theorem linksTo_fieldTypeDisplay (hR : PlainTypes R) (ht : free "(" t = true) :
    LinksTo (ToType R "types.md") (fieldTypeDisplay R t) := by
  unfold fieldTypeDisplay
  split
  · dsimp only
    split
    · next hk =>
      refine (part_typeLink hR (isDocumentedType_iff.mp hk) rfl).2.append (Markdown.only_of_not_mem ?_)
      simp [List.mem_replicate]
    · exact linksTo_quoted ht
  split
  · exact linksTo_quoted ht
  · exact linksTo_typeLink hR ht

theorem linksTo_fieldRow (hR : PlainTypes R) {e : StructField × ℕ × ℕ} (hname : free "(" e.1.name = true)
    (htype : free "(" e.1.typeName = true) : LinksTo (ToType R "types.md") (fieldRow R e) := by
  have hbar : LinksTo (ToType R "types.md") " | " := Markdown.only_of_inert rfl
  have hfront : LinksTo (ToType R "types.md") ("| " ++ Py.natStr e.2.1 ++ " | `" ++ e.1.name ++ "`") := by
    refine linksTo_of_free ?_ rfl rfl
    simp only [free_append]
    exact ⟨⟨⟨rfl, free_natStr rfl _⟩, rfl⟩, hname⟩
  have hexplicit : LinksTo (ToType R "types.md") (explicitMark e.1) := by
    unfold explicitMark
    split
    · exact Markdown.only_of_inert rfl
    · exact Markdown.only_of_inert rfl
  have hend : LinksTo (ToType R "types.md") " |" := Markdown.only_of_inert rfl
  exact (((((hfront.append hexplicit).append hbar).append (linksTo_fieldTypeDisplay hR htype)).append
    hbar).append (linksTo_natStr _)).append hend

theorem free_anchorTag {cs : Str} (hk : free cs k = true) (hc : cs.contains '_' = false)
    (htag : free cs "<a id=\"" = true ∧ free cs "\"></a>" = true) : free cs (anchorTag k) = true :=
  free_append.mpr ⟨free_append.mpr ⟨htag.1, free_aliasAnchor hk hc⟩, htag.2⟩

theorem struct_name_mem {sd : StructDef} (h : sd ∈ R.structDefs.values) : sd.name ∈ documentedNames R := by
  obtain ⟨k, hk⟩ := Dict.mem_values.mp h
  rw [R.named _ hk]
  exact List.mem_append_left _ (List.mem_append_left _ (Dict.mem_keys_of_mem hk))

theorem free_metaLine (sd : StructDef) : free "]" (metaLine sd) = true := by
  refine free_append.mpr ⟨free_append.mpr ⟨rfl, free_join rfl fun p hp => ?_⟩, rfl⟩
  rw [List.mem_cons, List.mem_cons] at hp
  rcases hp with rfl | rfl | hp
  · exact free_append.mpr ⟨free_append.mpr ⟨rfl, free_natStr rfl _⟩, rfl⟩
  · exact free_append.mpr ⟨free_append.mpr ⟨rfl, free_natStr rfl _⟩, rfl⟩
  · split at hp
    · rw [List.mem_singleton.mp hp]
      rfl
    · cases hp

theorem linksTo_structLines (hR : PlainTypes R) {sd : StructDef} (hsd : sd ∈ R.structDefs.values) :
    ∀ l ∈ structLines R sd, LinksTo (ToType R "types.md") l := by
  have hfree := hR.names _ (struct_name_mem hsd)
  intro l hl
  simp only [structLines, List.mem_append, List.mem_cons, List.not_mem_nil, or_false, List.mem_map] at hl
  rcases hl with ((rfl | rfl | rfl | rfl | rfl) | ⟨e, he, rfl⟩) | rfl | rfl | rfl
  · exact linksTo_of_unclosed (free_anchorTag (free_of_chars hfree (by decide)) rfl ⟨rfl, rfl⟩)
  · exact linksTo_of_unclosed (free_append.mpr ⟨rfl, free_of_chars hfree (by decide)⟩)
  · exact Markdown.only_of_inert rfl
  · exact Markdown.only_of_inert rfl
  · exact Markdown.only_of_inert rfl
  · have hf := hR.fields sd hsd e.1 (List.of_mem_zip he).1
    exact linksTo_fieldRow hR hf.1 hf.2
  · exact linksTo_of_unclosed (free_metaLine sd)
  · exact Markdown.only_of_inert rfl
  · exact Markdown.only_of_inert rfl

theorem mem_documented_of_alias (h : k ∈ R.typeAliases.keys) : k ∈ documentedNames R :=
  List.mem_append_left _ (List.mem_append_right _ h)

theorem mem_documented_of_array (h : k ∈ R.arrayTypes.keys) : k ∈ documentedNames R :=
  List.mem_append_right _ h

theorem linksTo_aliasRow (hR : PlainTypes R) {e : Str × Str} (he : e ∈ R.typeAliases.entries) :
    LinksTo P (aliasRow e) := by
  have hname : free "(" e.1 = true :=
    free_of_chars (hR.names e.1 (mem_documented_of_alias (Dict.mem_keys_of_mem he))) (by decide)
  refine linksTo_of_free ?_ rfl rfl
  simp only [free_append]
  exact ⟨⟨⟨⟨⟨rfl, free_anchorTag hname rfl ⟨rfl, rfl⟩⟩, rfl⟩, hname⟩, rfl⟩,
    hR.targets e.2 (Dict.mem_values.mpr ⟨e.1, he⟩)⟩

theorem linksTo_arrayRow (hR : PlainTypes R) {e : Str × ArrayType} (he : e ∈ R.arrayTypes.entries) :
    LinksTo P (arrayRow e) := by
  have hname : free "(" e.1 = true :=
    free_of_chars (hR.names e.1 (mem_documented_of_array (Dict.mem_keys_of_mem he))) (by decide)
  refine linksTo_of_free ?_ rfl rfl
  simp only [free_append]
  exact ⟨⟨⟨⟨⟨⟨⟨rfl, free_anchorTag hname rfl ⟨rfl, rfl⟩⟩, rfl⟩, hname⟩, rfl⟩,
    hR.elements e.2 (Dict.mem_values.mpr ⟨e.1, he⟩)⟩, rfl⟩, free_natStr rfl _⟩

theorem linksTo_primitiveRow (hR : PlainTypes R) {e : Str × Primitive} (he : e ∈ R.cPrimitives.entries) :
    LinksTo P (primitiveRow e) := by
  have hname := hR.primitives e.1 (Dict.mem_keys_of_mem he)
  refine linksTo_of_free ?_ rfl rfl
  simp only [free_append]
  exact ⟨⟨⟨⟨⟨⟨⟨rfl, free_anchorTag hname rfl ⟨rfl, rfl⟩⟩, rfl⟩, hname⟩, rfl⟩, free_natStr rfl _⟩, rfl⟩,
    free_natStr rfl _⟩

theorem linksTo_of_all {ls : List Str} (h : ls.all (Markdown.inert ']' '(') = true) : ∀ l ∈ ls, LinksTo P l :=
  fun l hl => Markdown.only_of_inert (List.all_eq_true.mp h l hl)

/-- The links on the page of types lead to entries on it. -/
theorem linksTo_typesPage (hR : PlainTypes R) : LinksTo (ToType R "types.md") (typesPage R) := by
  refine Markdown.Only.join (Markdown.only_of_inert rfl) fun l hl => ?_
  simp only [typesLines, List.mem_append, List.mem_map, List.mem_flatMap] at hl
  rcases hl with ((((((hl | ⟨sd, hsd, hl⟩) | hl) | ⟨e, he, rfl⟩) | ⟨e, he, rfl⟩) | hl) | ⟨e, he, rfl⟩) | hl
  · exact linksTo_of_all (by decide) l hl
  · exact linksTo_structLines hR hsd l hl
  · exact linksTo_of_all (by decide) l hl
  · exact linksTo_aliasRow hR he
  · exact linksTo_arrayRow hR he
  · exact linksTo_of_all (by decide) l hl
  · exact linksTo_primitiveRow hR he
  · exact linksTo_of_all (by decide) l hl

theorem infix_anchorTag (k : Str) : ("<a id=\"" ++ aliasAnchor k ++ "\"" : Str) <:+: anchorTag k := by
  refine ⟨[], "></a>", ?_⟩
  rw [List.nil_append, List.append_assoc]
  rfl

/-- Every documented type has its anchor. -/
theorem aliasAnchor_mem_anchors (hR : PlainTypes R) (hk : k ∈ documentedNames R) :
    aliasAnchor k ∈ anchors (typesPage R) := by
  have hquote : '"' ∉ aliasAnchor k :=
    not_mem_of_free (free_aliasAnchor (hR.names k hk) rfl) rfl
  refine Markdown.mem_anchors_of_infix hquote ((infix_anchorTag k).trans ?_)
  have hline : ∀ l ∈ typesLines R, anchorTag k <:+: l → anchorTag k <:+: typesPage R :=
    fun l hl hin => hin.trans (Markdown.infix_join hl)
  rw [documentedNames, List.mem_append, List.mem_append] at hk
  rcases hk with (hk | hk) | hk
  · obtain ⟨e, he, rfl⟩ := List.mem_map.mp hk
    refine hline (anchorTag e.1) ?_ (List.infix_refl _)
    have hmem : anchorTag e.1 ∈ structLines R e.2 := by simp [structLines, R.named e he]
    simp only [typesLines, List.mem_append, List.mem_flatMap]
    exact .inl (.inl (.inl (.inl (.inl (.inl (.inr ⟨e.2, Dict.mem_values.mpr ⟨e.1, he⟩, hmem⟩))))))
  · obtain ⟨e, he, rfl⟩ := List.mem_map.mp hk
    have hin : anchorTag e.1 <:+: aliasRow e := by
      unfold aliasRow
      simp only [List.append_assoc]
      exact List.infix_append' _ _ _
    refine hline (aliasRow e) ?_ hin
    simp only [typesLines, List.mem_append]
    exact .inl (.inl (.inl (.inl (.inr (List.mem_map_of_mem he)))))
  · obtain ⟨e, he, rfl⟩ := List.mem_map.mp hk
    have hin : anchorTag e.1 <:+: arrayRow e := by
      unfold arrayRow
      simp only [List.append_assoc]
      exact List.infix_append' _ _ _
    refine hline (arrayRow e) ?_ hin
    simp only [typesLines, List.mem_append]
    exact .inl (.inl (.inl (.inr (List.mem_map_of_mem he))))

end Types

-- ════════════════════════════════════════════════════════════════════════
-- The pages of calls
-- ════════════════════════════════════════════════════════════════════════

section Calls

variable {R : TypeRegistry} {P : Str → Prop} {name s : Str} {args : List SyscallArg} {argsId : List Str}

theorem free_badgeUrl {arch : Str} (harch : free "[])" arch = true) (number : ℤ) :
    free "[])" (badgeUrl arch number) = true := by
  have hcolor : free "[])" ((archColors.get? arch).getD "555555") = true := by
    cases hc : archColors.get? arch with
    | none => rfl
    | some color =>
      have hall : ∀ c ∈ archColors.values, free "[])" c = true := by decide
      exact hall color (Dict.mem_values.mpr ⟨arch, Dict.get?_eq_some_iff.mp hc⟩)
  unfold badgeUrl
  dsimp only
  split
  · exact free_append.mpr ⟨free_append.mpr ⟨free_append.mpr ⟨rfl, harch⟩, rfl⟩, hcolor⟩
  · simp only [free_append]
    exact ⟨⟨⟨⟨⟨rfl, harch⟩, rfl⟩, free_intStr rfl rfl number⟩, rfl⟩, hcolor⟩

theorem isBadge_badgeUrl (arch : Str) (number : ℤ) : IsBadge (badgeUrl arch number) := by
  unfold badgeUrl
  dsimp only
  split
  · simp only [List.append_assoc]
    exact List.prefix_append _ _
  · simp only [List.append_assoc]
    exact List.prefix_append _ _

theorem part_makeBadge {arch : Str} (harch : free "[])" arch = true) (number : ℤ) :
    Part IsBadge (makeBadge arch number) := by
  have hlink : Part IsBadge ("[" ++ arch ++ "](" ++ badgeUrl arch number ++ ")") :=
    part_link (free_of_chars harch (by decide)) (free_badgeUrl harch number) (isBadge_badgeUrl arch number)
  exact (part_of_free (u := "!") rfl).append hlink

theorem part_makeBadges (sc : Syscall) : Part IsBadge (makeBadges sc) := by
  refine (part_of_free rfl).join fun p hp => ?_
  simp only [List.mem_cons, List.not_mem_nil, or_false] at hp
  rcases hp with rfl | rfl | rfl
  · exact part_makeBadge rfl _
  · exact part_makeBadge rfl _
  · exact part_makeBadge rfl _

theorem free_cSignature (hc : PlainCall name args argsId) {retType : Str} (hret : free "[]" retType = true) :
    free "[]" (cSignature name args argsId retType) = true := by
  have hname : free "[]" name = true := free_of_chars hc.name (by decide)
  unfold cSignature
  simp only [free_append]
  refine ⟨⟨⟨⟨⟨hret, rfl⟩, hname⟩, rfl⟩, ?_⟩, rfl⟩
  split
  · rfl
  · refine free_join rfl fun p hp => ?_
    obtain ⟨e, he, rfl⟩ := List.mem_map.mp hp
    have hmem := List.of_mem_zip he
    exact free_append.mpr ⟨free_append.mpr ⟨hc.args _ hmem.1, rfl⟩, hc.argsId _ hmem.2⟩

theorem free_widen (p : Primitive) : free "[]" (widen p.witName) = true := by
  unfold widen
  rw [← List.singleton_append, free_append]
  refine ⟨rfl, ?_⟩
  split
  · rfl
  · exact free_natStr rfl _

theorem free_wasmParams {ps : List (Str × Str)} (h : wasmParams R args argsId = .ok ps)
    {p : Str × Str} (hp : p ∈ ps) : p.1 ∈ argsId ∧ free "[]" p.2 = true := by
  unfold wasmParams at h
  split at h
  · cases h
  · next ptr _ =>
    have hmem : (.ok p : Except Py.Error _) ∈ ps.map Except.ok := List.mem_map_of_mem hp
    rw [← Py.mapM_eq_ok_iff.mp h] at hmem
    obtain ⟨e, he, hok⟩ := List.mem_map.mp hmem
    obtain ⟨w, hw, rfl⟩ := Py.map_eq_ok_iff.mp hok
    refine ⟨(List.of_mem_zip he).2, ?_⟩
    unfold toWasmType at hw
    split at hw
    · rw [← Except.ok.inj hw]
      exact free_widen ptr
    · obtain ⟨q, -, rfl⟩ := Py.map_eq_ok_iff.mp hw
      exact free_widen q

theorem free_wasmSignature (hc : PlainCall name args argsId) {retType : Str} (hret : free "[]" retType = true)
    {isSyscall : Bool} (h : wasmSignature R name args argsId retType isSyscall = .ok s) :
    free "[]" s = true := by
  obtain ⟨ps, hps, hs⟩ := Py.bind_eq_ok_iff.mp h
  rw [← Except.ok.inj hs]
  have hname : free "[]" name = true := free_of_chars hc.name (by decide)
  have hparams : free "[]" (Py.join " " (ps.map fun p => "(param $" ++ p.1 ++ " " ++ p.2 ++ ")")) = true := by
    refine free_join rfl fun q hq => ?_
    obtain ⟨p, hp, rfl⟩ := List.mem_map.mp hq
    have hp' := free_wasmParams hps hp
    simp only [free_append]
    exact ⟨⟨⟨⟨rfl, hc.argsId _ hp'.1⟩, rfl⟩, hp'.2⟩, rfl⟩
  have hresult : free "[]" (resultClause retType) = true := by
    unfold resultClause
    split
    · rfl
    · exact free_append.mpr ⟨free_append.mpr ⟨rfl, hret⟩, rfl⟩
  have himport : free "[]" (if isSyscall then "SYS_" ++ name else name) = true := by
    split
    · exact free_append.mpr ⟨rfl, hname⟩
    · exact hname
  have hbody := free_append.mpr ⟨free_append.mpr ⟨free_append.mpr ⟨free_append.mpr
    ⟨(rfl : free "[]" "(func " = true), hparams⟩, (rfl : free "[]" " " = true)⟩, hresult⟩,
    (rfl : free "[]" ")" = true)⟩
  simp only [free_append]
  exact ⟨⟨⟨⟨rfl, himport⟩, rfl⟩, free_of_subset hbody (Py.infix_strip _).subset⟩, rfl⟩

/-- Every name in the order is documented, and every name of an argument is one. -/
structure RefsKept (R : TypeRegistry) (argsId : List Str) (refs : List Str × Dict Str (List Str)) : Prop where
  documented : ∀ k ∈ refs.1, k ∈ documentedNames R
  via : ∀ k names, refs.2.get? k = some names → names ⊆ argsId

theorem RefsKept.step {refs : List Str × Dict Str (List Str)} (h : RefsKept R argsId refs)
    {e : SyscallArg × Str} (he : e.2 ∈ argsId) : RefsKept R argsId (referenceStep R refs e) := by
  unfold referenceStep
  dsimp only
  split
  · next hk =>
    -- the entry of the base type is the only one that changes
    have hset : ∀ names ⊆ argsId, ∀ k names',
        (refs.2.set (Py.strip (Py.rstripChar '*' e.1)) names).get? k = some names' → names' ⊆ argsId := by
      intro names hnames k names' hget
      rcases Dict.mem_set_entries.mp (Dict.get?_eq_some_iff.mp hget) with hnew | ⟨hold, -⟩
      · rw [(Prod.mk.inj hnew).2]
        exact hnames
      · exact h.via k names' (Dict.get?_eq_some_iff.mpr hold)
    split
    · refine ⟨fun k hmem => ?_, hset _ (by simpa using he)⟩
      rcases List.mem_append.mp hmem with hmem | hmem
      · exact h.documented k hmem
      · rw [List.mem_singleton.mp hmem]
        exact isDocumentedType_iff.mp hk
    · next names hget =>
      refine ⟨h.documented, hset _ ?_⟩
      exact List.append_subset.mpr ⟨h.via _ names hget, by simpa using he⟩
  · exact h

theorem refsKept_foldl {es : List (SyscallArg × Str)} (hes : ∀ e ∈ es, e.2 ∈ argsId)
    {refs : List Str × Dict Str (List Str)} (h : RefsKept R argsId refs) :
    RefsKept R argsId (es.foldl (referenceStep R) refs) := by
  induction es generalizing refs with
  | nil => exact h
  | cons e es ih =>
    obtain ⟨he, hes⟩ := List.forall_mem_cons.mp hes
    exact ih hes (h.step he)

theorem mem_syscallReferencedTypes {sc : Syscall} {ref : Str × List Str}
    (h : ref ∈ syscallReferencedTypes R sc) : ref.1 ∈ documentedNames R ∧ ref.2 ⊆ sc.argsId := by
  have hkept : RefsKept R sc.argsId ((sc.args.zip sc.argsId).foldl (referenceStep R) ([], .empty)) := by
    refine refsKept_foldl (fun e he => (List.of_mem_zip he).2) ⟨List.forall_mem_nil _, ?_⟩
    intro k names hget
    cases hget
  obtain ⟨k, hk, rfl⟩ := List.mem_map.mp h
  refine ⟨hkept.documented k hk, ?_⟩
  cases hget : Dict.get? _ k with
  | none => exact List.nil_subset _
  | some names => exact hkept.via k names hget

theorem part_refsMd (hR : PlainTypes R) {sc : Syscall} (hsc : PlainCall sc.name sc.args sc.argsId) :
    Part (ToType R "../types.md") (refsMd R sc) := by
  unfold refsMd
  dsimp only
  split
  · exact part_of_free rfl
  refine Part.append ((part_of_free rfl).join fun l hl => ?_) (part_of_free rfl)
  simp only [List.mem_cons, List.mem_map] at hl
  rcases hl with rfl | rfl | ⟨ref, href, rfl⟩
  · exact part_of_free rfl
  · exact part_of_free rfl
  · obtain ⟨hk, hvia⟩ := mem_syscallReferencedTypes href
    have hnames : free "[]" (Py.join ", " (ref.2.map fun n => "`" ++ n ++ "`")) = true := by
      refine free_join rfl fun q hq => ?_
      obtain ⟨n, hn, rfl⟩ := List.mem_map.mp hq
      exact free_append.mpr ⟨free_append.mpr ⟨rfl, hsc.argsId n (hvia hn)⟩, rfl⟩
    exact ((((part_of_free rfl).append (part_typeLink hR hk rfl)).append (part_of_free rfl)).append
      (part_of_free hnames)).append (part_of_free rfl)

section Overrides

variable {overrides : Dict Str Override}

theorem overrideOf_cases (overrides : Dict Str Override) (name : Str) :
    overrideOf overrides name = {} ∨ ∃ o ∈ overrides.values, overrideOf overrides name = o := by
  unfold overrideOf
  cases ho : overrides.get? name with
  | none => exact .inl rfl
  | some o => exact .inr ⟨o, Dict.mem_values.mpr ⟨name, Dict.get?_eq_some_iff.mp ho⟩, rfl⟩

variable (hov : ∀ o ∈ overrides.values, o.Fine)

include hov

theorem part_description (name : Str) :
    Part (Authored overrides) (overrideOf overrides name).description := by
  rcases overrideOf_cases overrides name with h | ⟨o, ho, h⟩
  · rw [h]
    exact part_of_free rfl
  · rw [h]
    exact (hov o ho).description.mono fun x hx => ⟨o, ho, .inl hx⟩

theorem part_notesMd (name : Str) : Part (Authored overrides) (notesMd (overrideOf overrides name)) := by
  unfold notesMd
  split
  · exact part_of_free rfl
  refine (part_of_free rfl).append ?_
  rcases overrideOf_cases overrides name with h | ⟨o, ho, h⟩
  · rw [h]
    exact part_of_free rfl
  · rw [h]
    exact (hov o ho).notes.mono fun x hx => ⟨o, ho, .inr hx⟩

theorem linksTo_syscallPage {t : Templates} (ht : t.Fine) (hR : PlainTypes R) {sc : Syscall}
    (hsc : PlainCall sc.name sc.args sc.argsId) (h : syscallPage R t overrides sc = .ok s) :
    LinksTo (fun x => ToType R "../types.md" x ∨ IsBadge x ∨ Authored overrides x) s := by
  obtain ⟨sigs, hsigs, hs⟩ := Py.bind_eq_ok_iff.mp h
  obtain ⟨wasm, hwasm, hsigs⟩ := Py.bind_eq_ok_iff.mp hsigs
  obtain rfl := Except.ok.inj hsigs
  rw [← Except.ok.inj hs]
  refine linksTo_fill ht.syscall rfl ?_
  simp only [List.forall_mem_cons]
  refine ⟨part_of_free (free_of_chars hsc.name (by decide)), ?_, ?_, ?_, ?_, ?_, List.forall_mem_nil _⟩
  · exact (part_makeBadges sc).mono fun _ hx => .inr (.inl hx)
  · exact (part_description hov sc.name).mono fun _ hx => .inr (.inr hx)
  · exact part_of_free (free_cSignature hsc rfl)
  · exact part_of_free (free_wasmSignature hsc rfl hwasm)
  · exact ((part_refsMd hR hsc).mono fun _ hx => .inl hx).append
      ((part_notesMd hov sc.name).mono fun _ hx => .inr (.inr hx))

theorem linksTo_auxPage {t : Templates} (ht : t.Fine) {aux : AuxSyscall}
    (haux : PlainCall aux.name aux.args aux.argsId) (hret : free "[]" (Wamr.auxRetType aux) = true)
    (h : auxPage R t overrides aux = .ok s) : LinksTo (Authored overrides) s := by
  obtain ⟨sigs, hsigs, hs⟩ := Py.bind_eq_ok_iff.mp h
  obtain ⟨wasm, hwasm, hsigs⟩ := Py.bind_eq_ok_iff.mp hsigs
  obtain rfl := Except.ok.inj hsigs
  rw [← Except.ok.inj hs]
  have hwasmRet : free "[]" (auxWasmRet aux) = true := by
    unfold auxWasmRet
    dsimp only
    split
    · rfl
    · split
      · rfl
      · rfl
  refine linksTo_fill ht.aux rfl ?_
  simp only [List.forall_mem_cons]
  exact ⟨part_of_free (free_of_chars haux.name (by decide)), part_description hov aux.name,
    part_of_free (free_cSignature haux hret), part_of_free (free_wasmSignature haux hwasmRet hwasm),
    part_of_free hret, part_notesMd hov aux.name, List.forall_mem_nil _⟩

end Overrides

end Calls

-- ════════════════════════════════════════════════════════════════════════
-- The index
-- ════════════════════════════════════════════════════════════════════════

/-- The link from the index to the page of a syscall. -/
def syscallTarget (sc : Syscall) : Str := "syscalls/" ++ sc.name ++ ".md"

/-- The link from the index to the page of an auxiliary call. -/
def auxTarget (aux : AuxSyscall) : Str := "aux/" ++ nameClean aux ++ ".md"

def IndexTarget (scs : List Syscall) (auxs : List AuxSyscall) (target : Str) : Prop :=
  (∃ sc ∈ supported scs, target = syscallTarget sc) ∨ ∃ aux ∈ auxs, target = auxTarget aux

section Index

variable {scs : List Syscall} {auxs : List AuxSyscall}

theorem mem_sortedSyscalls {sc : Syscall} : sc ∈ sortedSyscalls scs ↔ sc ∈ supported scs := List.mem_mergeSort

theorem free_numberCell {cs : Str} (h : cs.all (fun c => !c.isDigit) = true) (hminus : cs.contains '-' = false)
    (number : ℤ) : free cs (numberCell number) = true := by
  unfold numberCell
  split
  · exact free_intStr h hminus number
  · simpa [free] using hminus

theorem free_nameClean {cs : Str} {aux : AuxSyscall} (h : free cs aux.name = true) :
    free cs (nameClean aux) = true :=
  free_of_subset h (List.dropWhile_suffix _).subset

theorem syscallRow_eq (sc : Syscall) :
    syscallRow sc = "| " ++ ("[" ++ ("SYS_" ++ sc.name) ++ "](" ++ syscallTarget sc ++ ")") ++
      (" | " ++ numberCell sc.nrs.x86_64 ++ " | " ++ numberCell sc.nrs.arm64 ++ " | " ++
        numberCell sc.nrs.rv64 ++ " |") := by
  unfold syscallRow syscallTarget
  simp only [List.append_assoc]
  rfl

theorem auxRow_eq (aux : AuxSyscall) :
    auxRow aux = "| " ++ ("[" ++ aux.name ++ "](" ++ auxTarget aux ++ ")") ++ " |" := by
  unfold auxRow auxTarget
  simp only [List.append_assoc]
  rfl

theorem part_syscallRow {sc : Syscall} (hsc : sc ∈ supported scs) (hname : free "[]()/#" sc.name = true) :
    Part (IndexTarget scs auxs) (syscallRow sc) := by
  have htarget : free "[])" (syscallTarget sc) = true :=
    free_append.mpr ⟨free_append.mpr ⟨rfl, free_of_chars hname (by decide)⟩, rfl⟩
  rw [syscallRow_eq]
  refine ((part_of_free rfl).append (part_link ?_ htarget (.inl ⟨sc, hsc, rfl⟩))).append (part_of_free ?_)
  · exact free_append.mpr ⟨rfl, free_of_chars hname (by decide)⟩
  · simp only [free_append]
    exact ⟨⟨⟨⟨⟨⟨rfl, free_numberCell rfl rfl _⟩, rfl⟩, free_numberCell rfl rfl _⟩, rfl⟩,
      free_numberCell rfl rfl _⟩, rfl⟩

theorem part_auxRow {aux : AuxSyscall} (haux : aux ∈ auxs) (hname : free "[]()/#" aux.name = true) :
    Part (IndexTarget scs auxs) (auxRow aux) := by
  have htarget : free "[])" (auxTarget aux) = true :=
    free_append.mpr ⟨free_append.mpr ⟨rfl, free_nameClean (free_of_chars hname (by decide))⟩, rfl⟩
  rw [auxRow_eq]
  exact ((part_of_free rfl).append (part_link (free_of_chars hname (by decide)) htarget
    (.inr ⟨aux, haux, rfl⟩))).append (part_of_free rfl)

theorem part_syscallTable (hscs : ∀ sc ∈ supported scs, free "[]()/#" sc.name = true) :
    Part (IndexTarget scs auxs) (syscallTable scs) := by
  refine (part_of_free rfl).join fun l hl => ?_
  simp only [List.mem_cons, List.mem_map] at hl
  rcases hl with rfl | rfl | ⟨sc, hsc, rfl⟩
  · exact part_of_free rfl
  · exact part_of_free rfl
  · exact part_syscallRow (mem_sortedSyscalls.mp hsc) (hscs sc (mem_sortedSyscalls.mp hsc))

theorem part_auxTable (hauxs : ∀ aux ∈ auxs, free "[]()/#" aux.name = true) :
    Part (IndexTarget scs auxs) (auxTable auxs) := by
  refine (part_of_free rfl).join fun l hl => ?_
  simp only [List.mem_cons, List.mem_map] at hl
  rcases hl with rfl | rfl | ⟨aux, haux, rfl⟩
  · exact part_of_free rfl
  · exact part_of_free rfl
  · exact part_auxRow haux (hauxs aux haux)

theorem infix_link (label target before after : Str) :
    ("](" ++ target ++ ")" : Str) <:+: before ++ ("[" ++ label ++ "](" ++ target ++ ")") ++ after :=
  ⟨before ++ ("[" ++ label), after, by simp only [List.append_assoc]⟩

section Names

variable {t : Templates} (ht : t.Fine) (hscs : ∀ sc ∈ supported scs, free "[]()/#" sc.name = true)
  (hauxs : ∀ aux ∈ auxs, free "[]()/#" aux.name = true)

include hscs hauxs

theorem part_indexValues : ∀ e ∈ [(("NUM_SYSCALLS" : Str), Py.natStr (supported scs).length),
    ("NUM_AUX", Py.natStr auxs.length), ("SYSCALL_TABLE", syscallTable scs), ("AUX_TABLE", auxTable auxs)],
    Part (IndexTarget scs auxs) e.2 := by
  simp only [List.forall_mem_cons]
  exact ⟨part_of_free (free_natStr rfl _), part_of_free (free_natStr rfl _), part_syscallTable hscs,
    part_auxTable hauxs, List.forall_mem_nil _⟩

include ht

/-- Every link on the index is that of a supported syscall or an auxiliary call. -/
theorem linksTo_specificationIndex : LinksTo (IndexTarget scs auxs) (specificationIndex t scs auxs) :=
  linksTo_fill ht.specification rfl (part_indexValues hscs hauxs)

/-- And each of them has its link. -/
theorem mem_links_specificationIndex {target : Str} (h : IndexTarget scs auxs target) :
    target ∈ links (specificationIndex t scs auxs) := by
  have hfill : specificationIndex t scs auxs = _ :=
    fill_eq ht.specification rfl (part_indexValues hscs hauxs)
  rw [hfill]
  rcases h with ⟨sc, hsc, rfl⟩ | ⟨aux, haux, rfl⟩
  · have htarget : free ")" (syscallTarget sc) = true :=
      free_append.mpr ⟨free_append.mpr ⟨rfl, free_of_chars (hscs sc hsc) (by decide)⟩, rfl⟩
    refine Markdown.mem_links_of_infix (not_mem_of_free htarget rfl) ?_
    have hrow : syscallRow sc <:+: syscallTable scs :=
      Markdown.infix_join (List.mem_cons_of_mem _ (List.mem_cons_of_mem _
        (List.mem_map_of_mem (mem_sortedSyscalls.mpr hsc))))
    rw [syscallRow_eq] at hrow
    exact ((infix_link _ _ _ _).trans hrow).trans (infix_filled ht.syscallTable rfl)
  · have htarget : free ")" (auxTarget aux) = true :=
      free_append.mpr ⟨free_append.mpr ⟨rfl, free_nameClean (free_of_chars (hauxs aux haux) (by decide))⟩, rfl⟩
    refine Markdown.mem_links_of_infix (not_mem_of_free htarget rfl) ?_
    have hrow : auxRow aux <:+: auxTable auxs :=
      Markdown.infix_join (List.mem_cons_of_mem _ (List.mem_cons_of_mem _ (List.mem_map_of_mem haux)))
    rw [auxRow_eq] at hrow
    exact ((infix_link _ _ _ _).trans hrow).trans (infix_filled ht.auxTable rfl)

end Names

end Index

-- ════════════════════════════════════════════════════════════════════════
-- Following a link
-- ════════════════════════════════════════════════════════════════════════

section Follow

variable (dir : Str) {name : Str}

theorem splitOn_callPath (hdir : '/' ∉ dir) (hname : '/' ∉ name) :
    ("specification/" ++ dir ++ "/" ++ name ++ ".md" : Str).splitOn '/' =
      [("specification" : Str), dir, name ++ ".md"] := by
  have hfile : '/' ∉ name ++ ".md" := by simp [hname]
  have hpath : ("specification/" ++ dir ++ "/" ++ name ++ ".md" : Str) =
      "specification" ++ '/' :: (dir ++ '/' :: (name ++ ".md")) := by
    simp only [List.append_assoc]
    rfl
  rw [hpath, Py.splitOn_append_cons, Py.splitOn_append_cons, Py.splitOn_of_not_mem hdir,
    Py.splitOn_of_not_mem hfile]
  rfl

theorem isName_file (hname : '/' ∉ name) : Paths.IsName (name ++ ".md") where
  ne_nil := by simp
  ne_dot h := by have := congrArg List.length h; simp at this
  ne_dots h := by have := congrArg List.getLast? h; simp at this
  no_slash := by simp [hname]

/-- A link from the index to the page of a call. -/
theorem follow_index (hdir : Paths.IsName dir) (hdir' : '#' ∉ dir) (hname : free "/#" name = true) :
    follow indexPath (dir ++ "/" ++ name ++ ".md") =
      ([("specification" : Str), dir, name ++ ".md"], []) := by
  have hslash : '/' ∉ name := not_mem_of_free hname rfl
  have hhash : '#' ∉ dir ++ "/" ++ name ++ ".md" := by simp [hdir', not_mem_of_free hname (c := '#') rfl]
  have hall : ∀ c ∈ dir ++ "/" ++ name ++ ".md", (c != '#') = true := by
    intro c hc
    refine bne_iff_ne.mpr ?_
    rintro rfl
    exact hhash hc
  have hsplit : (dir ++ "/" ++ name ++ ".md" : Str).splitOn '/' = [dir, name ++ ".md"] := by
    have hpath : (dir ++ "/" ++ name ++ ".md" : Str) = dir ++ '/' :: (name ++ ".md") := by
      simp only [List.append_assoc]
      rfl
    rw [hpath, Py.splitOn_append_cons, Py.splitOn_of_not_mem hdir.no_slash,
      Py.splitOn_of_not_mem (isName_file hslash).no_slash]
    rfl
  rw [follow, List.takeWhile_eq_self_iff.mpr hall, List.dropWhile_eq_nil_iff.mpr hall, hsplit,
    Paths.walk_names (by simpa using ⟨hdir, isName_file hslash⟩)]
  rfl

/-- A link with an anchor. -/
theorem follow_anchor {file : Str} (hfile : '#' ∉ file) (page anchor : Str) :
    follow page (file ++ "#" ++ anchor) =
      (Paths.walk (page.splitOn '/').dropLast (file.splitOn '/'), anchor) := by
  have htarget : file ++ "#" ++ anchor = file ++ '#' :: anchor := by
    rw [List.append_assoc]
    rfl
  rw [follow, htarget, Cut.takeWhile_bne_append_cons hfile, Cut.dropWhile_bne_append_cons hfile]
  rfl

end Follow

-- ════════════════════════════════════════════════════════════════════════
-- The site
-- ════════════════════════════════════════════════════════════════════════

/-- The names the site is made of. -/
structure Plain (R : TypeRegistry) (scs : List Syscall) (auxs : List AuxSyscall) : Prop where
  types : PlainTypes R
  syscalls : ∀ sc ∈ supported scs, PlainCall sc.name sc.args sc.argsId
  auxCalls : ∀ aux ∈ auxs, PlainCall aux.name aux.args aux.argsId
  results : ∀ aux ∈ auxs, free "[]" (Wamr.auxRetType aux) = true

section Site

variable {R : TypeRegistry} {t : Templates} {overrides : Dict Str Override} {scs : List Syscall}
  {auxs : List AuxSyscall} {files : List (Str × Str)} {target : Str}

/-- What a file of the site is. -/
theorem mem_pages_cases {f : Str × Str} (h : .ok f ∈ pages R t overrides scs auxs) :
    f = (indexPath, specificationIndex t scs auxs) ∨
    (∃ sc ∈ supported scs, f.1 = syscallPath sc.name ∧ syscallPage R t overrides sc = .ok f.2) ∨
    (∃ aux ∈ auxs, f.1 = auxPath aux ∧ auxPage R t overrides aux = .ok f.2) ∨ f = (typesPath, typesPage R) := by
  simp only [pages, List.mem_append, List.mem_singleton, List.mem_map, Except.ok.injEq] at h
  rcases h with ((h | ⟨sc, hsc, h⟩) | ⟨aux, haux, h⟩) | h
  · exact .inl h
  · obtain ⟨s, hs, rfl⟩ := Py.map_eq_ok_iff.mp h
    exact .inr (.inl ⟨sc, hsc, rfl, hs⟩)
  · obtain ⟨s, hs, rfl⟩ := Py.map_eq_ok_iff.mp h
    exact .inr (.inr (.inl ⟨aux, haux, rfl, hs⟩))
  · exact .inr (.inr (.inr h))

section Files

variable (h : pages R t overrides scs auxs = files.map .ok)

include h

theorem mem_files_iff {f : Str × Str} : f ∈ files ↔ .ok f ∈ pages R t overrides scs auxs := by
  rw [h]
  exact (List.mem_map_of_injective fun _ _ => Except.ok.inj).symm

theorem typesPage_mem : (typesPath, typesPage R) ∈ files := by
  rw [mem_files_iff h]
  exact List.mem_append_right _ (List.mem_singleton.mpr rfl)

theorem exists_syscallPage {sc : Syscall} (hsc : sc ∈ supported scs) : ∃ f ∈ files, f.1 = syscallPath sc.name := by
  have hmem : (syscallPage R t overrides sc).map (syscallPath sc.name, ·) ∈ pages R t overrides scs auxs :=
    List.mem_append_left _ (List.mem_append_left _ (List.mem_append_right _ (List.mem_map.mpr ⟨sc, hsc, rfl⟩)))
  rw [h] at hmem
  obtain ⟨f, hf, hok⟩ := List.mem_map.mp hmem
  obtain ⟨s, -, rfl⟩ := Py.map_eq_ok_iff.mp hok.symm
  exact ⟨_, hf, rfl⟩

theorem exists_auxPage {aux : AuxSyscall} (haux : aux ∈ auxs) : ∃ f ∈ files, f.1 = auxPath aux := by
  have hmem : (auxPage R t overrides aux).map (auxPath aux, ·) ∈ pages R t overrides scs auxs :=
    List.mem_append_left _ (List.mem_append_right _ (List.mem_map.mpr ⟨aux, haux, rfl⟩))
  rw [h] at hmem
  obtain ⟨f, hf, hok⟩ := List.mem_map.mp hmem
  obtain ⟨s, -, rfl⟩ := Py.map_eq_ok_iff.mp hok.symm
  exact ⟨_, hf, rfl⟩

/-- A link to a type leads to its entry. -/
theorem leads_of_toType (hR : PlainTypes R) {page relativeLink : Str} (hrel : '#' ∉ relativeLink)
    (hpage : Paths.walk (page.splitOn '/').dropLast (relativeLink.splitOn '/') = typesPath.splitOn '/')
    (htarget : ToType R relativeLink target) : Leads files page target := by
  obtain ⟨k, hk, rfl⟩ := htarget
  refine ⟨_, typesPage_mem h, ?_, .inr ?_⟩
  · rw [follow_anchor hrel]
    exact hpage
  · rw [follow_anchor hrel]
    exact aliasAnchor_mem_anchors hR hk

end Files

theorem splitOn_syscallPath {name : Str} (hname : free "[]()/#" name = true) :
    (syscallPath name).splitOn '/' = [("specification" : Str), "syscalls", name ++ ".md"] :=
  splitOn_callPath "syscalls" (by decide) (not_mem_of_free hname rfl)

theorem follow_syscallTarget {sc : Syscall} (hname : free "[]()/#" sc.name = true) :
    follow indexPath (syscallTarget sc) = ((syscallPath sc.name).splitOn '/', []) := by
  rw [splitOn_syscallPath hname]
  exact follow_index "syscalls" ⟨by decide, by decide, by decide, by decide⟩ (by decide)
    (free_of_chars hname (by decide))

theorem follow_auxTarget {aux : AuxSyscall} (hname : free "[]()/#" aux.name = true) :
    follow indexPath (auxTarget aux) = ((auxPath aux).splitOn '/', []) := by
  have hclean := free_nameClean hname
  have hpath : (auxPath aux).splitOn '/' = [("specification" : Str), "aux", nameClean aux ++ ".md"] :=
    splitOn_callPath "aux" (by decide) (not_mem_of_free hclean rfl)
  rw [hpath]
  exact follow_index "aux" ⟨by decide, by decide, by decide, by decide⟩ (by decide)
    (free_of_chars hclean (by decide))

/-- A link on the index leads to the page of its call. -/
theorem leads_of_indexTarget (h : pages R t overrides scs auxs = files.map .ok)
    (hscs : ∀ sc ∈ supported scs, free "[]()/#" sc.name = true)
    (hauxs : ∀ aux ∈ auxs, free "[]()/#" aux.name = true) (htarget : IndexTarget scs auxs target) :
    Leads files indexPath target := by
  rcases htarget with ⟨sc, hsc, rfl⟩ | ⟨aux, haux, rfl⟩
  · obtain ⟨g, hg, hpath⟩ := exists_syscallPage h hsc
    refine ⟨g, hg, ?_, .inl ?_⟩
    · rw [follow_syscallTarget (hscs sc hsc), hpath]
    · rw [follow_syscallTarget (hscs sc hsc)]
  · obtain ⟨g, hg, hpath⟩ := exists_auxPage h haux
    refine ⟨g, hg, ?_, .inl ?_⟩
    · rw [follow_auxTarget (hauxs aux haux), hpath]
    · rw [follow_auxTarget (hauxs aux haux)]

/-- **No dangling link, no orphan page**: when all pages are written, every Markdown link on them leads
to one of them, at an anchor that is there, unless it is the picture of a badge or stands in an override;
and the page of every call is linked from the index. -/
theorem site_closed (ht : t.Fine) (hov : ∀ o ∈ overrides.values, o.Fine) (hplain : Plain R scs auxs)
    (h : pages R t overrides scs auxs = files.map .ok) :
    (∀ f ∈ files, ∀ target ∈ links f.2, Leads files f.1 target ∨ IsBadge target ∨ Authored overrides target) ∧
    ∀ f ∈ files, f.1 ≠ indexPath → f.1 ≠ typesPath →
      ∃ target ∈ links (specificationIndex t scs auxs), follow indexPath target = (f.1.splitOn '/', []) := by
  have hscs : ∀ sc ∈ supported scs, free "[]()/#" sc.name = true := fun sc hsc => (hplain.syscalls sc hsc).name
  have hauxs : ∀ aux ∈ auxs, free "[]()/#" aux.name = true := fun aux haux => (hplain.auxCalls aux haux).name
  refine ⟨fun f hf target htarget => ?_, fun f hf hindex htypes => ?_⟩
  · rcases mem_pages_cases ((mem_files_iff h).mp hf) with rfl | ⟨sc, hsc, hpath, hpage⟩ | ⟨aux, haux, -, hpage⟩ | rfl
    · exact .inl (leads_of_indexTarget h hscs hauxs
        ((linksTo_specificationIndex ht hscs hauxs).of_mem htarget))
    · have hlinks := linksTo_syscallPage hov ht hplain.types (hplain.syscalls sc hsc) hpage
      refine (hlinks.of_mem htarget).imp_left ?_
      refine leads_of_toType h hplain.types (by decide) ?_
      have hup : Paths.walk [("specification" : Str), "syscalls"] (("../types.md" : Str).splitOn '/') =
          typesPath.splitOn '/' := by decide
      rw [hpath, splitOn_syscallPath (hscs sc hsc)]
      exact hup
    · have hlinks := linksTo_auxPage hov ht (hplain.auxCalls aux haux) (hplain.results aux haux) hpage
      exact .inr (.inr (hlinks.of_mem htarget))
    · have hhere : Paths.walk (typesPath.splitOn '/').dropLast (("types.md" : Str).splitOn '/') =
          typesPath.splitOn '/' := by decide
      exact .inl (leads_of_toType h hplain.types (by decide) hhere
        ((linksTo_typesPage hplain.types).of_mem htarget))
  · rcases mem_pages_cases ((mem_files_iff h).mp hf) with rfl | ⟨sc, hsc, hpath, -⟩ | ⟨aux, haux, hpath, -⟩ | rfl
    · exact absurd rfl hindex
    · refine ⟨syscallTarget sc, mem_links_specificationIndex ht hscs hauxs (.inl ⟨sc, hsc, rfl⟩), ?_⟩
      rw [follow_syscallTarget (hscs sc hsc), hpath]
    · refine ⟨auxTarget aux, mem_links_specificationIndex ht hscs hauxs (.inr ⟨aux, haux, rfl⟩), ?_⟩
      rw [follow_auxTarget (hauxs aux haux), hpath]
    · exact absurd rfl htypes

theorem shippedTemplates_fine : shippedTemplates.Fine where
  syscall := by decide +kernel
  aux := by decide +kernel
  specification := by decide +kernel
  syscallTable := by decide +kernel
  auxTable := by decide +kernel

/-- The entry of `__init` in `syscalls.yaml`. -/
def initOverride : Override where
  description := "Initializes the WALI runtime environment. This must be called before any \nother WALI operations.\n"
  notes := "- Called automatically in libc startup files.\n- Returns 0 on success, non-zero on failure\n"

def initOverrides : Dict Str Override where
  entries := [("__init", initOverride)]
  nodup := by decide

/-- `lseek` as shipped. -/
def lseek : Syscall where
  name := "lseek"
  nrs := { x86_64 := 8, arm64 := 62, rv64 := 62 }
  args := ["int", "off_t", "int"]
  argsId := ["fd", "offset", "whence"]
  implemented := true

theorem plain_lseek : Plain TypeRegistry.shippedBare [lseek] [initCall] where
  types := ⟨by decide +kernel, by decide +kernel, by decide +kernel, by decide +kernel, by decide +kernel⟩
  syscalls := by
    intro sc hsc
    obtain rfl : sc = lseek := List.mem_singleton.mp hsc
    exact ⟨by decide +kernel, by decide +kernel, by decide +kernel⟩
  auxCalls := by
    intro aux haux
    obtain rfl := List.mem_singleton.mp haux
    exact ⟨by decide +kernel, by decide +kernel, by decide +kernel⟩
  results := by decide +kernel

theorem site_closed_lseek : ∃ files,
    pages TypeRegistry.shippedBare shippedTemplates initOverrides [lseek] [initCall] = files.map .ok ∧
    ∀ f ∈ files, ∀ target ∈ links f.2, Leads files f.1 target ∨ IsBadge target ∨ Authored initOverrides target := by
  have hsigs : syscallSignatures TypeRegistry.shippedBare lseek = .ok
      ("long lseek(int fd, off_t offset, int whence);",
        "(import \"wali\" \"SYS_lseek\" (func (param $fd i32) (param $offset i64) (param $whence i32)" ++
          " (result i64)))") := by decide +kernel
  have hauxSigs : auxSignatures TypeRegistry.shippedBare initCall =
      .ok ("int __init(void);", "(import \"wali\" \"__init\" (func  (result i32)))") := by decide +kernel
  obtain ⟨s, hs⟩ : ∃ s, syscallPage TypeRegistry.shippedBare shippedTemplates initOverrides lseek = .ok s := by
    rw [syscallPage, hsigs]
    exact ⟨_, rfl⟩
  obtain ⟨s', hs'⟩ : ∃ s, auxPage TypeRegistry.shippedBare shippedTemplates initOverrides initCall = .ok s := by
    rw [auxPage, hauxSigs]
    exact ⟨_, rfl⟩
  have hov : ∀ o ∈ initOverrides.values, o.Fine := by
    intro o ho
    obtain rfl : o = initOverride := List.mem_singleton.mp ho
    exact ⟨part_of_free (by decide +kernel), part_of_free (by decide +kernel)⟩
  have hpages : pages TypeRegistry.shippedBare shippedTemplates initOverrides [lseek] [initCall] =
      [(indexPath, specificationIndex shippedTemplates [lseek] [initCall]), (syscallPath lseek.name, s),
        (auxPath initCall, s'), (typesPath, typesPage TypeRegistry.shippedBare)].map .ok := by
    have hsupp : supported [lseek] = [lseek] := rfl
    rw [pages, hsupp, List.map_singleton, List.map_singleton, hs, hs']
    rfl
  exact ⟨_, hpages, (site_closed shippedTemplates_fine hov plain_lseek hpages).1⟩

end Site

end Wali.Docs
