import Wali.Py.Text

/-!
# Links and anchors in a text

A link is found by the two characters between its label and its target, an anchor by those that begin
its tag. `Only` bounds what is found in a text, whatever stands behind it, so that a page is as good as
its parts; `mem_scan_of_infix` says what is found for certain.
-/

namespace Markdown

open Py (Str)

section Scan

variable (o₁ o₂ : Char) (read : Str → Option Str)

/-- What is read behind each occurrence of two characters. -/
def scan : Str → List Str
  | [] => []
  | [_] => []
  | c :: d :: s => (if c = o₁ ∧ d = o₂ then (read s).toList else []) ++ scan (d :: s)

/-- Everything found in a text has the property, whatever comes behind it. -/
def Only (P : Str → Prop) (u : Str) : Prop :=
  ∀ v, ∀ x ∈ scan o₁ o₂ read (u ++ v), P x ∨ x ∈ scan o₁ o₂ read v

/-- The first of the two characters is never followed by the second one or by the end. -/
def inert : Str → Bool
  | [] => true
  | [c] => c != o₁
  | c :: d :: s => !(c == o₁ && d == o₂) && inert (d :: s)

end Scan

section Only

variable {o₁ o₂ : Char} {read : Str → Option Str} {P : Str → Prop} {u v x : Str}

theorem Only.of_mem (h : Only o₁ o₂ read P u) (hx : x ∈ scan o₁ o₂ read u) : P x := by
  rw [← List.append_nil u] at hx
  exact (h [] x hx).resolve_right (by simp [scan])

theorem Only.mono {Q : Str → Prop} (hPQ : ∀ x, P x → Q x) (h : Only o₁ o₂ read P u) : Only o₁ o₂ read Q u :=
  fun v x hx => (h v x hx).imp_left (hPQ x)

theorem only_nil : Only o₁ o₂ read P [] := fun _ _ hx => .inr hx

theorem Only.append (hu : Only o₁ o₂ read P u) (hv : Only o₁ o₂ read P v) : Only o₁ o₂ read P (u ++ v) := by
  intro w x hx
  rw [List.append_assoc] at hx
  exact (hu _ x hx).elim .inl (hv w x)

theorem Only.flatMap {α : Type} {xs : List α} {f : α → Str} (h : ∀ x ∈ xs, Only o₁ o₂ read P (f x)) :
    Only o₁ o₂ read P (xs.flatMap f) := by
  induction xs with
  | nil => exact only_nil
  | cons x xs ih =>
    obtain ⟨hx, hxs⟩ := List.forall_mem_cons.mp h
    exact hx.append (ih hxs)

theorem Only.join {sep : Str} (hsep : Only o₁ o₂ read P sep) {parts : List Str}
    (h : ∀ p ∈ parts, Only o₁ o₂ read P p) : Only o₁ o₂ read P (Py.join sep parts) :=
  Cut.intercalate_induction only_nil (fun _ _ hu hv => (hu.append hsep).append hv) h

theorem scan_cons_cons_of_ne {c d : Char} (hne : ¬ (c = o₁ ∧ d = o₂)) (s : Str) :
    scan o₁ o₂ read (c :: d :: s) = scan o₁ o₂ read (d :: s) := by
  rw [scan, if_neg hne, List.nil_append]

theorem only_of_inert (h : inert o₁ o₂ u = true) : Only o₁ o₂ read P u := by
  intro v x hx
  refine .inr ?_
  induction u with
  | nil => exact hx
  | cons c u ih =>
    cases u with
    | nil =>
      have hc : c ≠ o₁ := bne_iff_ne.mp h
      cases v with
      | nil => simp [scan] at hx
      | cons d v => rwa [List.singleton_append, scan_cons_cons_of_ne fun hb => hc hb.1] at hx
    | cons d u =>
      rw [inert, Bool.and_eq_true] at h
      have hne : ¬ (c = o₁ ∧ d = o₂) := by
        rintro ⟨rfl, rfl⟩
        simp at h
      refine ih h.2 ?_
      rwa [List.cons_append, List.cons_append, scan_cons_cons_of_ne hne] at hx

theorem inert_of_not_mem (h : o₁ ∉ u) : inert o₁ o₂ u = true := by
  induction u with
  | nil => rfl
  | cons c u ih =>
    rw [List.mem_cons, not_or] at h
    have hne : c ≠ o₁ := Ne.symm h.1
    cases u with
    | nil => exact bne_iff_ne.mpr hne
    | cons d u =>
      rw [inert, beq_eq_false_iff_ne.mpr hne, ih h.2]
      rfl

theorem only_of_not_mem (h : o₁ ∉ u) : Only o₁ o₂ read P u := only_of_inert (inert_of_not_mem h)

/-- It may also be the second character that is missing. -/
theorem only_of_not_mem_second (h : o₂ ∉ u) (hlast : u.getLast? ≠ some o₁) : Only o₁ o₂ read P u := by
  refine only_of_inert ?_
  induction u with
  | nil => rfl
  | cons c u ih =>
    cases u with
    | nil => exact bne_iff_ne.mpr fun hc => hlast (congrArg some hc)
    | cons d u =>
      have hd : d ≠ o₂ := by
        rintro rfl
        exact h (by simp)
      rw [List.getLast?_cons_cons] at hlast
      simpa [inert, hd] using ih (fun hmem => h (List.mem_cons_of_mem c hmem)) hlast

/-- One mark, when what is read behind it is there already. -/
theorem only_mark {w : Str} (hread : ∀ v, read (w ++ v) = some x) (hw : inert o₁ o₂ (o₂ :: w) = true)
    (hx : P x) : Only o₁ o₂ read P (o₁ :: o₂ :: w) := by
  intro v y hy
  rw [List.cons_append, List.cons_append, scan, if_pos ⟨rfl, rfl⟩, hread, ← List.cons_append,
    List.mem_append] at hy
  rcases hy with hy | hy
  · obtain rfl : y = x := by simpa using hy
    exact .inl hx
  · exact only_of_inert hw v y hy

/-- What certainly is found. -/
theorem mem_scan_of_infix {w s : Str} (hread : ∀ v, read (w ++ v) = some x)
    (h : o₁ :: o₂ :: w <:+: s) : x ∈ scan o₁ o₂ read s := by
  obtain ⟨a, b, rfl⟩ := h
  induction a with
  | nil =>
    rw [List.nil_append, List.cons_append, List.cons_append, scan, if_pos ⟨rfl, rfl⟩, hread]
    exact List.mem_append_left _ (by simp)
  | cons c a ih =>
    obtain ⟨d, s, hs⟩ : ∃ d s, a ++ o₁ :: o₂ :: w ++ b = d :: s := by
      cases a with
      | nil => exact ⟨_, _, rfl⟩
      | cons d a => exact ⟨_, _, rfl⟩
    rw [hs] at ih
    rw [List.cons_append, List.cons_append, hs, scan]
    exact List.mem_append_right _ ih

end Only

-- ════════════════════════════════════════════════════════════════════════
-- Links and anchors
-- ════════════════════════════════════════════════════════════════════════

/-- The target of a link, from behind the opening parenthesis. -/
def linkTarget (s : Str) : Option Str := some (s.takeWhile (· != ')'))

/-- The targets of all links. -/
def links : Str → List Str := scan ']' '(' linkTarget

/-- All links in a text lead to such targets. -/
abbrev LinksTo : (Str → Prop) → Str → Prop := Only ']' '(' linkTarget

/-- The name of an anchor, from behind `<a`. -/
def anchorName (s : Str) : Option Str :=
  if Py.startsWith s " id=\"" then some ((s.drop 5).takeWhile (· != '"')) else none

/-- The names of all anchors. -/
def anchors : Str → List Str := scan '<' 'a' anchorName

theorem infix_join {sep p : Str} {parts : List Str} (h : p ∈ parts) : p <:+: Py.join sep parts := by
  obtain ⟨xs, ys, rfl⟩ := List.append_of_mem h
  rw [Py.join_append_cons]
  exact ⟨_, _, rfl⟩

section Links

variable {label target : Str}

theorem linkTarget_append (ht : ')' ∉ target) (v : Str) : linkTarget ((target ++ [')']) ++ v) = some target := by
  rw [linkTarget, List.append_assoc, List.singleton_append, Cut.takeWhile_bne_append_cons ht]

/-- A link with its label. -/
theorem linksTo_link {P : Str → Prop} (hl : ']' ∉ label) (ht : ']' ∉ target) (ht' : ')' ∉ target)
    (hP : P target) : LinksTo P ("[" ++ label ++ "](" ++ target ++ ")") := by
  have hmark : LinksTo P (']' :: '(' :: (target ++ [')'])) :=
    only_mark (linkTarget_append ht') (inert_of_not_mem (by simp [ht])) hP
  have hlabel : LinksTo P ('[' :: label) := only_of_not_mem (by simp [hl])
  simpa using hlabel.append hmark

theorem mem_links_of_infix {s : Str} (ht : ')' ∉ target) (h : ("](" ++ target ++ ")" : Str) <:+: s) :
    target ∈ links s :=
  mem_scan_of_infix (w := target ++ [')']) (linkTarget_append ht) h

theorem mem_anchors_of_infix {name s : Str} (hq : '"' ∉ name) (h : ("<a id=\"" ++ name ++ "\"" : Str) <:+: s) :
    name ∈ anchors s := by
  refine mem_scan_of_infix (w := " id=\"" ++ name ++ "\"") (fun v => ?_) h
  have hstart : Py.startsWith ((" id=\"" ++ name ++ "\"") ++ v) " id=\"" = true := by
    rw [Py.startsWith_iff, List.append_assoc, List.append_assoc]
    exact List.prefix_append _ _
  have hdrop : ((" id=\"" ++ name ++ "\"") ++ v).drop 5 = name ++ '"' :: v := by simp
  rw [anchorName, if_pos hstart, hdrop, Cut.takeWhile_bne_append_cons hq]

end Links

end Markdown
