import Mathlib.Data.List.DropRight
import Mathlib.Data.List.Infix

/-!
# Python strings

A Python `str` is modelled by the list of its code points. This file has the
string methods the development needs, with the documented behaviour of the
standard library: `strip` and `rsplit` work on Unicode white space, `\d` and
`int` on Unicode decimal digits.
-/

namespace Py

/-- A Python `str`: its code points, first to last. -/
abbrev Str := List Char

instance : Coe String Str := ⟨String.toList⟩

/-- The code points `str.isspace` accepts. -/
def spaceCodes : List ℕ :=
  [0x9, 0xa, 0xb, 0xc, 0xd, 0x1c, 0x1d, 0x1e, 0x1f, 0x20, 0x85, 0xa0, 0x1680, 0x2000, 0x2001,
    0x2002, 0x2003, 0x2004, 0x2005, 0x2006, 0x2007, 0x2008, 0x2009, 0x200a, 0x2028, 0x2029,
    0x202f, 0x205f, 0x3000]

def isSpace (c : Char) : Bool := spaceCodes.contains c.toNat

/-- The code points of the digit zero in every script with decimal digits; the
digits one to nine follow each of them. -/
def digitZeros : List ℕ :=
  [0x30, 0x660, 0x6f0, 0x7c0, 0x966, 0x9e6, 0xa66, 0xae6, 0xb66, 0xbe6, 0xc66, 0xce6, 0xd66,
    0xde6, 0xe50, 0xed0, 0xf20, 0x1040, 0x1090, 0x17e0, 0x1810, 0x1946, 0x19d0, 0x1a80, 0x1a90,
    0x1b50, 0x1bb0, 0x1c40, 0x1c50, 0xa620, 0xa8d0, 0xa900, 0xa9d0, 0xa9f0, 0xaa50, 0xabf0,
    0xff10, 0x104a0, 0x10d30, 0x11066, 0x110f0, 0x11136, 0x111d0, 0x112f0, 0x11450, 0x114d0,
    0x11650, 0x116c0, 0x11730, 0x118e0, 0x11950, 0x11c50, 0x11d50, 0x11da0, 0x16a60, 0x16ac0,
    0x16b50, 0x1d7ce, 0x1d7d8, 0x1d7e2, 0x1d7ec, 0x1d7f6, 0x1e140, 0x1e2f0, 0x1e950, 0x1fbf0]

/-- The value of a decimal digit, `none` for every other character. -/
def digitValue? (c : Char) : Option ℕ :=
  (digitZeros.find? fun z => z ≤ c.toNat ∧ c.toNat < z + 10).map (c.toNat - ·)

/-- The class `\d`. -/
def isDigit (c : Char) : Bool := (digitValue? c).isSome

/-- `int` on a string of decimal digits. -/
def intOfDigits (ds : Str) : ℕ := ds.foldl (fun n c => 10 * n + (digitValue? c).getD 0) 0

/-- `str` of a natural number. -/
def natStr (n : ℕ) : Str := Nat.toDigits 10 n

/-- `str` of an integer. -/
def intStr : ℤ → Str
  | .ofNat n => natStr n
  | .negSucc n => '-' :: natStr (n + 1)

def startsWith (s pre : Str) : Bool := pre.isPrefixOf s

def endsWith (s suf : Str) : Bool := suf.isSuffixOf s

/-- `s.rstrip(c)` for one character. -/
def rstripChar (c : Char) (s : Str) : Str := s.rdropWhile (· == c)

/-- `s.lstrip(c)` for one character. -/
def lstripChar (c : Char) (s : Str) : Str := s.dropWhile (· == c)

def strip (s : Str) : Str := (s.dropWhile isSpace).rdropWhile isSpace

/-- `s.replace(a, b)` for one character each. -/
def replaceChar (a b : Char) (s : Str) : Str := s.map fun c => if c = a then b else c

/-- `sub in s`. -/
def contains (s sub : Str) : Bool := s.tails.any (sub.isPrefixOf ·)

/-- The loop of `s.replace(old, new)`, with the number of characters still to be skipped. -/
def replaceFrom (old new : Str) : ℕ → Str → Str
  | _, [] => []
  | k + 1, _ :: s => replaceFrom old new k s
  | 0, c :: s =>
    if old.isPrefixOf (c :: s) then new ++ replaceFrom old new (old.length - 1) s
    else c :: replaceFrom old new 0 s

/-- `s.replace(old, new)` for a text that is not empty. -/
def replace (s old new : Str) : Str := replaceFrom old new 0 s

/-- `s.rsplit(maxsplit=1)`: at most one cut, at the last run of white space. -/
def rsplitOnce (s : Str) : List Str :=
  let body := s.rdropWhile isSpace
  let word := body.rtakeWhile fun c => !isSpace c
  let rest := (body.rdropWhile fun c => !isSpace c).rdropWhile isSpace
  if body = [] then [] else if rest = [] then [word] else [rest, word]

/-- `sep.join(parts)`. -/
def join (sep : Str) (parts : List Str) : Str := sep.intercalate parts

/-- The order of `sorted`: by code points. -/
def le (s t : Str) : Bool := !List.lex t s fun c d => decide (c.toNat < d.toNat)

/-- The format `: >w`: blanks on the left up to the width. -/
def rjust (w : ℕ) (s : Str) : Str := List.replicate (w - s.length) ' ' ++ s

def isIndent (c : Char) : Bool := c == ' ' || c == '\t'

/-- `textwrap.dedent`: lines of blanks are emptied, then the indentation that all other lines share
is removed. -/
def dedent (s : Str) : Str :=
  let lines := (s.splitOn '\n').map fun l => if l.all isIndent then [] else l
  let indents := (lines.filter (· ≠ [])).map (List.takeWhile isIndent)
  let margin := match indents with
    | [] => 0
    | i :: is => (is.foldl (fun m j => ((m.zip j).takeWhile fun e => e.1 == e.2).map Prod.fst) i).length
  join "\n" (lines.map (List.drop margin))

/-- The code points at which `str.splitlines` ends a line. -/
def lineBreaks : List ℕ := [0xa, 0xb, 0xc, 0xd, 0x1c, 0x1d, 0x1e, 0x85, 0x2028, 0x2029]

/-- `str.splitlines(True)`: the lines with their ends; `\r\n` is one end. -/
def splitLines : Str → List Str
  | [] => []
  | '\r' :: '\n' :: s => ['\r', '\n'] :: splitLines s
  | c :: s =>
    if lineBreaks.contains c.toNat then [c] :: splitLines s
    else match splitLines s with
      | [] => [[c]]
      | l :: ls => (c :: l) :: ls

/-- `textwrap.indent`: lines of white space stay as they are. -/
def indent (s before : Str) : Str :=
  ((splitLines s).map fun l => if l.all isSpace then l else before ++ l).flatten

theorem endsWith_iff {s suf : Str} : endsWith s suf = true ↔ suf <:+ s :=
  List.isSuffixOf_iff_suffix

theorem startsWith_iff {s pre : Str} : startsWith s pre = true ↔ pre <+: s :=
  List.isPrefixOf_iff_prefix

theorem rstripChar_of_not_endsWith {c : Char} {s : Str} (h : endsWith s [c] = false) :
    rstripChar c s = s := by
  refine List.rdropWhile_eq_self_iff.mpr fun hne hlast => ?_
  rw [← Bool.not_eq_true, endsWith_iff] at h
  exact h ⟨s.dropLast, by rw [← eq_of_beq hlast, List.dropLast_append_getLast]⟩

theorem length_rstripChar_lt {c : Char} {s : Str} (h : endsWith s [c] = true) :
    (rstripChar c s).length < s.length := by
  obtain ⟨u, rfl⟩ := endsWith_iff.mp h
  have hle := List.IsPrefix.length_le ( List.rdropWhile_prefix (· == c) u)
  rw [rstripChar, List.rdropWhile_concat_pos (· == c) u c (beq_self_eq_true c), List.length_append]
  exact Nat.lt_succ_of_le hle

@[simp] theorem mem_replaceChar {a b c : Char} {s : Str} :
    c ∈ replaceChar a b s ↔ (c ∈ s ∧ c ≠ a) ∨ (c = b ∧ a ∈ s) := by
  simp only [replaceChar, List.mem_map]
  constructor
  · rintro ⟨d, hd, rfl⟩
    by_cases h : d = a
    · subst d
      simp [hd]
    · simp [h, hd]
  · rintro (⟨hc, hne⟩ | ⟨rfl, ha⟩)
    · exact ⟨c, hc, by simp [hne]⟩
    · exact ⟨a, ha, by simp⟩

theorem replaceChar_of_not_mem {a b : Char} {s : Str} (h : a ∉ s) : replaceChar a b s = s := by
  induction s with
  | nil => rfl
  | cons c s ih =>
    rw [List.mem_cons, not_or] at h
    have hs := ih h.2
    simp only [replaceChar, List.map_cons] at hs ⊢
    rw [hs, if_neg (Ne.symm h.1)]

/-- A check of all characters of a text that can be evaluated. -/
theorem forall_mem_of_all {p : Char → Prop} [DecidablePred p] {s : Str}
    (h : (s.all fun c => decide (p c)) = true) : ∀ c ∈ s, p c := by
  intro c hc
  exact of_decide_eq_true (List.all_eq_true.mp h c hc)

end Py
