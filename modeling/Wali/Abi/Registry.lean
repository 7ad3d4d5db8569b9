import Wali.Py.Str
import Wali.Py.Dict
import Wali.Py.Error

/-!
# The type registry: data

The tables of `TypeRegistry` in `abi.py`. A registry is a value here; what the
Python class does to its class attributes is modelled by passing it along.
-/

namespace Wali

open Py (Str Dict)

/-- A primitive type with known size and signedness. -/
structure Primitive where
  /-- Bytes. -/
  size : ℕ
  signed : Bool
  deriving DecidableEq, Repr

/-- `Primitive.wit_name`: `s` or `u` and the width in bits. -/
def Primitive.witName (p : Primitive) : Str :=
  (if p.signed then 's' else 'u') :: Py.natStr (p.size * 8)

/-- A named fixed-size array type. -/
structure ArrayType where
  elementType : Str
  count : ℕ
  deriving DecidableEq, Repr

/-- A field in a struct definition. An explicit offset overrides the computed one. -/
structure StructField where
  name : Str
  typeName : Str
  offset : Option ℤ := none
  deriving DecidableEq, Repr

/-- The arguments of a `StructDef` construction. -/
structure StructDecl where
  name : Str
  fields : List StructField
  expectedSize : Option ℤ := none
  packed : Bool := false
  deriving DecidableEq, Repr

/-- What `compute_struct_layout` returns. -/
structure StructLayout where
  fieldOffsets : List ℕ
  fieldSizes : List ℕ
  totalSize : ℕ
  alignment : ℕ
  deriving DecidableEq, Repr

/-- The end of the last field, zero when there is none. -/
def StructLayout.lastEnd (L : StructLayout) : ℕ :=
  ((L.fieldOffsets.zip L.fieldSizes).getLast?).elim 0 fun e => e.1 + e.2

/-- A struct type with its computed layout. -/
structure StructDef extends StructDecl, StructLayout
  deriving DecidableEq, Repr

/-- The state of `TypeRegistry`. A struct is filed under its own name. -/
structure TypeRegistry where
  cPrimitives : Dict Str Primitive
  typeAliases : Dict Str Str
  arrayTypes : Dict Str ArrayType
  structDefs : Dict Str StructDef
  named : ∀ e ∈ structDefs.entries, e.2.name = e.1

namespace TypeRegistry

/-- `c_primitives` as shipped. -/
def shippedPrimitives : Dict Str Primitive where
  entries := [
    ("int", ⟨4, true⟩), ("long", ⟨8, true⟩), ("long long", ⟨8, true⟩), ("short", ⟨2, true⟩),
    ("reg", ⟨8, true⟩), ("unsigned", ⟨4, false⟩), ("unsigned int", ⟨4, false⟩),
    ("unsigned long", ⟨8, false⟩), ("unsigned long long", ⟨8, false⟩),
    ("unsigned short", ⟨2, false⟩), ("unsigned reg", ⟨8, false⟩), ("syscall_result", ⟨8, true⟩),
    ("uint8_t", ⟨1, false⟩), ("uint16_t", ⟨2, false⟩), ("uint32_t", ⟨4, false⟩),
    ("uint64_t", ⟨8, false⟩), ("int8_t", ⟨1, true⟩), ("int16_t", ⟨2, true⟩),
    ("int32_t", ⟨4, true⟩), ("int64_t", ⟨8, true⟩),
    ("ptr", ⟨4, false⟩), ("ptr_func", ⟨4, false⟩)]
  nodup := by decide

/-- `type_aliases` as shipped. -/
def shippedAliases : Dict Str Str where
  entries := [
    ("off_t", "long long"), ("size_t", "unsigned int"), ("nfds_t", "unsigned long long"),
    ("socklen_t", "unsigned int"), ("clockid_t", "int"), ("mode_t", "int"), ("uid_t", "int"),
    ("pid_t", "int"), ("gid_t", "int"),
    ("rlim_t", "unsigned long long"), ("time_t", "int64_t"), ("suseconds_t", "int64_t"),
    ("sa_family_t", "unsigned short"), ("ino_t", "uint64_t"), ("dev_t", "uint64_t"),
    ("nlink_t", "unsigned reg"), ("blksize_t", "long"), ("blkcnt_t", "int64_t"),
    ("fsblkcnt_t", "uint64_t"), ("fsfilcnt_t", "uint64_t"), ("epoll_data_t", "int64_t")]
  nodup := by decide

/-- `array_types` as shipped. -/
def shippedArrays : Dict Str ArrayType where
  entries := [("sigset_t", ⟨"long", 16⟩), ("fsid_t", ⟨"int32_t", 2⟩), ("uts_str", ⟨"uint8_t", 65⟩)]
  nodup := by decide

/-- The registry before any struct is registered. -/
def bare (prims : Dict Str Primitive) (aliases : Dict Str Str) (arrays : Dict Str ArrayType) :
    TypeRegistry where
  cPrimitives := prims
  typeAliases := aliases
  arrayTypes := arrays
  structDefs := .empty
  named := by simp

/-- The class attributes of `abi.py` before its struct definitions run. -/
def shippedBare : TypeRegistry := bare shippedPrimitives shippedAliases shippedArrays

end TypeRegistry

end Wali
