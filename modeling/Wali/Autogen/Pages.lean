import Wali.Autogen.Docs
import Wali.Py.Fill

/-!
# The pages of the documentation

What `DocsGenerator` writes: the specification index, a page for every implemented syscall, a page for
every auxiliary call, and the page of types. The templates and the overrides it loads are parameters.
-/

namespace Wali.Docs

open Py (Str Dict)
open Py.Fill (Piece)

/-- What `syscalls.yaml` says about one call. -/
structure Override where
  description : Str := []
  notes : Str := []
  deriving DecidableEq, Repr

/-- The templates, cut at their placeholders. -/
structure Templates where
  syscall : List Piece
  aux : List Piece
  specification : List Piece
  deriving DecidableEq, Repr

-- ════════════════════════════════════════════════════════════════════════
-- Badges
-- ════════════════════════════════════════════════════════════════════════

def archColors : Dict Str Str where
  entries := [("x86_64", "4c8cbf"), ("ARM64", "c73e3a"), ("RV64", "6b4c9a")]
  nodup := by decide

/-- Where the picture of a badge comes from. A call that the architecture does not have shows a dash. -/
def badgeUrl (arch : Str) (number : ℤ) : Str :=
  let color := (archColors.get? arch).getD "555555"
  if number < 0 then "https://img.shields.io/badge/" ++ arch ++ "----" ++ color
  else "https://img.shields.io/badge/" ++ arch ++ "-" ++ Py.intStr number ++ "-" ++ color

def makeBadge (arch : Str) (number : ℤ) : Str := "![" ++ arch ++ "](" ++ badgeUrl arch number ++ ")"

def makeBadges (sc : Syscall) : Str :=
  Py.join " " [makeBadge "x86_64" sc.nrs.x86_64, makeBadge "ARM64" sc.nrs.arm64, makeBadge "RV64" sc.nrs.rv64]

-- ════════════════════════════════════════════════════════════════════════
-- The index
-- ════════════════════════════════════════════════════════════════════════

/-- `supp_sc`. -/
def supported (scs : List Syscall) : List Syscall := scs.filter (·.implemented)

/-- The supported syscalls as the index lists them. Those with equal numbers keep their order. -/
def sortedSyscalls (scs : List Syscall) : List Syscall :=
  (supported scs).mergeSort fun x y => decide (x.nrs.x86_64 ≤ y.nrs.x86_64)

def numberCell (number : ℤ) : Str := if 0 ≤ number then Py.intStr number else "-"

def syscallRow (s : Syscall) : Str :=
  "| [SYS_" ++ s.name ++ "](syscalls/" ++ s.name ++ ".md) | " ++ numberCell s.nrs.x86_64 ++ " | " ++
    numberCell s.nrs.arm64 ++ " | " ++ numberCell s.nrs.rv64 ++ " |"

def syscallTable (scs : List Syscall) : Str :=
  Py.join "\n" ("| Syscall | x86_64 | ARM64 | RV64 |" :: "|---------|--------|-------|------|" ::
    (sortedSyscalls scs).map syscallRow)

/-- `name_clean`. -/
def nameClean (aux : AuxSyscall) : Str := Py.lstripChar '_' aux.name

def auxRow (aux : AuxSyscall) : Str := "| [" ++ aux.name ++ "](aux/" ++ nameClean aux ++ ".md) |"

def auxTable (auxs : List AuxSyscall) : Str :=
  Py.join "\n" ("| Function |" :: "|----------|" :: auxs.map auxRow)

/-- `_gen_specification_index`. -/
def specificationIndex (t : Templates) (scs : List Syscall) (auxs : List AuxSyscall) : Str :=
  Py.Fill.fill [("NUM_SYSCALLS", Py.natStr (supported scs).length), ("NUM_AUX", Py.natStr auxs.length),
    ("SYSCALL_TABLE", syscallTable scs), ("AUX_TABLE", auxTable auxs)] (Py.Fill.source t.specification)

-- ════════════════════════════════════════════════════════════════════════
-- The page of a call
-- ════════════════════════════════════════════════════════════════════════

section Calls

variable (R : TypeRegistry)

/-- One argument in `_syscall_referenced_types`: `order` and `via`. -/
def referenceStep (refs : List Str × Dict Str (List Str)) (e : SyscallArg × Str) :
    List Str × Dict Str (List Str) :=
  let base := Py.strip (Py.rstripChar '*' e.1)
  if isDocumentedType R base then
    match refs.2.get? base with
    | none => (refs.1 ++ [base], refs.2.set base [e.2])
    | some names => (refs.1, refs.2.set base (names ++ [e.2]))
  else refs

def syscallReferencedTypes (sc : Syscall) : List (Str × List Str) :=
  let refs := (sc.args.zip sc.argsId).foldl (referenceStep R) ([], .empty)
  -- every name in the order is a key
  refs.1.map fun name => (name, (refs.2.get? name).getD [])

def referenceLine (ref : Str × List Str) : Str :=
  "- " ++ typeLink R ref.1 "../types.md" ++ " (via " ++
    Py.join ", " (ref.2.map fun n => "`" ++ n ++ "`") ++ ")"

/-- `refs_md`. -/
def refsMd (sc : Syscall) : Str :=
  let refs := syscallReferencedTypes R sc
  if refs = [] then []
  else Py.join "\n" ("## Referenced Types" :: "" :: refs.map (referenceLine R)) ++ "\n"

/-- `notes_md`. -/
def notesMd (override : Override) : Str :=
  if override.notes = [] then [] else "## Notes\n\n" ++ override.notes

/-- The override of a call, empty where there is none. -/
def overrideOf (overrides : Dict Str Override) (name : Str) : Override := (overrides.get? name).getD {}

/-- `_gen_syscall_page`. -/
def syscallPage (t : Templates) (overrides : Dict Str Override) (sc : Syscall) : Except Py.Error Str := do
  let sigs ← syscallSignatures R sc
  let override := overrideOf overrides sc.name
  return Py.Fill.fill [("NAME", sc.name), ("BADGES", makeBadges sc), ("DESCRIPTION", override.description),
    ("C_SIGNATURE", sigs.1), ("WASM_SIGNATURE", sigs.2), ("NOTES", refsMd R sc ++ notesMd override)]
    (Py.Fill.source t.syscall)

/-- `_gen_aux_page`. -/
def auxPage (t : Templates) (overrides : Dict Str Override) (aux : AuxSyscall) : Except Py.Error Str := do
  let sigs ← auxSignatures R aux
  let override := overrideOf overrides aux.name
  return Py.Fill.fill [("NAME", aux.name), ("DESCRIPTION", override.description), ("C_SIGNATURE", sigs.1),
    ("WASM_SIGNATURE", sigs.2), ("RETURN_TYPE", Wamr.auxRetType aux), ("NOTES", notesMd override)]
    (Py.Fill.source t.aux)

-- ════════════════════════════════════════════════════════════════════════
-- The page of types
-- ════════════════════════════════════════════════════════════════════════

def anchorTag (name : Str) : Str := "<a id=\"" ++ aliasAnchor name ++ "\"></a>"

def explicitMark (f : StructField) : Str := if f.offset.isSome then " *(explicit)*" else []

def fieldRow (e : StructField × ℕ × ℕ) : Str :=
  "| " ++ Py.natStr e.2.1 ++ " | `" ++ e.1.name ++ "`" ++ explicitMark e.1 ++ " | " ++
    fieldTypeDisplay R e.1.typeName ++ " | " ++ Py.natStr e.2.2 ++ " |"

/-- The small text under the table of a struct. -/
def metaLine (sd : StructDef) : Str :=
  "<p class=\"struct-meta\"><small>" ++
    Py.join " · " (("Total Size: <b>" ++ Py.natStr sd.totalSize ++ "</b> bytes") ::
      ("Alignment: <b>" ++ Py.natStr sd.alignment ++ "</b> bytes") :: if sd.packed then ["Packed"] else []) ++
    "</small></p>"

def structLines (sd : StructDef) : List Str :=
  [anchorTag sd.name, "### " ++ sd.name, "", "| Offset | Field | Type | Size |",
    "|--------|-------|------|------|"] ++
  (sd.fields.zip (sd.fieldOffsets.zip sd.fieldSizes)).map (fieldRow R) ++
  [metaLine sd, "<hr class=\"struct-divider\">", ""]

def aliasRow (e : Str × Str) : Str := "| " ++ anchorTag e.1 ++ "`" ++ e.1 ++ "` | `" ++ e.2 ++ "` |"

def arrayRow (e : Str × ArrayType) : Str :=
  "| " ++ anchorTag e.1 ++ "`" ++ e.1 ++ "` | `" ++ e.2.elementType ++ "[" ++ Py.natStr e.2.count ++ "]` |"

def primitiveRow (e : Str × Primitive) : Str :=
  "| " ++ anchorTag e.1 ++ "`" ++ e.1 ++ "` | " ++ Py.natStr e.2.size ++ " | " ++ Py.natStr e.2.size ++ " |"

def typesHead : List Str :=
  ["---", "title: Types and ABI", "---", "", "# Types and ABI", "", "## Structs", ""]

def aliasesHead : List Str := ["## Type Aliases", "", "| Name | Target |", "|------|--------|"]

def primitivesHead : List Str :=
  ["", "## C Primitives", "", "| Name | Size | Alignment |", "|------|------|-----------|"]

def typesLines : List Str :=
  typesHead ++ R.structDefs.values.flatMap (structLines R) ++
  aliasesHead ++ R.typeAliases.entries.map aliasRow ++ R.arrayTypes.entries.map arrayRow ++
  primitivesHead ++ R.cPrimitives.entries.map primitiveRow ++ [[]]

/-- `_gen_types_page`. -/
def typesPage : Str := Py.join "\n" (typesLines R)

end Calls

-- ════════════════════════════════════════════════════════════════════════
-- The files
-- ════════════════════════════════════════════════════════════════════════

def indexPath : Str := "specification/index.md"

def syscallPath (name : Str) : Str := "specification/syscalls/" ++ name ++ ".md"

def auxPath (aux : AuxSyscall) : Str := "specification/aux/" ++ nameClean aux ++ ".md"

def typesPath : Str := "specification/types.md"

/-- What `generate` writes, in the order in which it does, up to the static files. -/
def pages (R : TypeRegistry) (t : Templates) (overrides : Dict Str Override) (scs : List Syscall)
    (auxs : List AuxSyscall) : List (Except Py.Error (Str × Str)) :=
  [.ok (indexPath, specificationIndex t scs auxs)] ++
  (supported scs).map (fun sc => (syscallPage R t overrides sc).map (syscallPath sc.name, ·)) ++
  auxs.map (fun aux => (auxPage R t overrides aux).map (auxPath aux, ·)) ++
  [.ok (typesPath, typesPage R)]

-- ════════════════════════════════════════════════════════════════════════
-- The shipped templates
-- ════════════════════════════════════════════════════════════════════════

/-- The picture on the button of a page: the cover of a book, its foot and two lines on it. -/
def buttonIcon : Str :=
  "<span class=\"twemoji\"><svg xmlns=\"http://www.w3.org/2000/svg\" viewBox=\"0 0 448 512\"><path d=\"" ++
  "M96 0C43 0 0 43 0 96v320c0 53 43 96 96 96h320c17.7 0 32-14.3 32-32s-14.3-32-32-32v-64c17.7 0 32-14.3 32-32V32c0-17.7-14.3-32-32-32H96z" ++
  "m0 384h256v64H96c-17.7 0-32-14.3-32-32s14.3-32 32-32z" ++
  "m32-240c0-8.8 7.2-16 16-16h192c8.8 0 16 7.2 16 16s-7.2 16-16 16H144c-8.8 0-16-7.2-16-16z" ++
  "m16 48h192c8.8 0 16 7.2 16 16s-7.2 16-16 16H144c-8.8 0-16-7.2-16-16s7.2-16 16-16z" ++
  "\"/></svg></span>"

/-- The part with the signatures, which the templates of calls share. -/
def signaturePieces : List Piece :=
  [.text "\n\n## Signature\n\n=== \"Wasm32\"\n\n    ```wat\n    ", .slot "WASM_SIGNATURE",
    .text "\n    ```\n\n=== \"C\"\n\n    ```c\n    ", .slot "C_SIGNATURE", .text "\n    ```\n\n"]

/-- The templates as shipped. -/
def shippedTemplates : Templates where
  syscall :=
    [.text "---\ntitle: SYS_", .slot "NAME",
      .text ("\n---\n\n<div style=\"display: flex; justify-content: space-between; align-items: center;\">\n" ++
        "<h1 style=\"margin: 0;\">SYS_"), .slot "NAME",
      .text "</h1>\n<a href=\"https://man7.org/linux/man-pages/man2/", .slot "NAME",
      .text (".2.html\" class=\"md-button md-button--primary\" style=\"padding: 0.4em 0.6em; font-size: 0.7em;\">" ++
        buttonIcon ++ " Man Page</a>\n</div>\n\n"), .slot "BADGES", .text "\n\n", .slot "DESCRIPTION"] ++
    signaturePieces ++ [.slot "NOTES", .text "\n"]
  aux :=
    [.text "# ", .slot "NAME", .text "\n\n", .slot "DESCRIPTION"] ++ signaturePieces ++
    [.text "## Return Value\n\nReturns `", .slot "RETURN_TYPE", .text "`.\n\n", .slot "NOTES", .text "\n"]
  specification :=
    [.text ("# WALI Syscall Specification\n\n" ++
        "This page lists all system calls and auxiliary functions defined in the WALI specification:\n" ++
        "there are **"), .slot "NUM_AUX",
      .text "** auxillary functions and **", .slot "NUM_SYSCALLS",
      .text ("** syscalls supported.\n\n## Auxiliary Functions\n\n" ++
        "These are WALI-specific functions that supplement the standard syscall interface.\n\n"),
      .slot "AUX_TABLE",
      .text "\n\n## System Calls\n\n", .slot "SYSCALL_TABLE", .text "\n"]

end Wali.Docs
