import Wali.Abi.Acceptance
import Wali.Py.Words

/-!
# Syscalls

The data of `syscalls.py` and the functions that prepare it for the generators. An argument type
is the C spelling it is declared with.
-/

namespace Wali

open Py (Str Dict)

structure ArchNrs where
  x86_64 : ℤ := -1
  arm64 : ℤ := -1
  rv64 : ℤ := -1
  deriving DecidableEq, Repr

abbrev SyscallArg := Str

namespace SyscallArg

def isPtr (arg : SyscallArg) : Bool := Py.endsWith arg "*"

def isFnPtr (arg : SyscallArg) : Bool := Py.startsWith arg "fn("

/-- Spelled like a pointer of either kind. -/
def Pointer (arg : SyscallArg) : Prop := arg.isPtr = true ∨ arg.isFnPtr = true

instance (arg : SyscallArg) : Decidable arg.Pointer := inferInstanceAs (Decidable (_ ∨ _))

/-- Spelled like a value. -/
def ByValue (arg : SyscallArg) : Prop := arg.isPtr = false ∧ arg.isFnPtr = false

theorem Pointer.or_eq {arg : SyscallArg} (h : arg.Pointer) : (arg.isPtr || arg.isFnPtr) = true :=
  Bool.or_eq_true_iff.mpr h

theorem ByValue.or_eq {arg : SyscallArg} (h : arg.ByValue) : (arg.isPtr || arg.isFnPtr) = false := by
  rw [h.1, h.2]
  rfl

theorem ByValue.not_pointer {arg : SyscallArg} (h : arg.ByValue) : ¬ arg.Pointer := by
  rintro (hp | hf)
  · exact absurd (h.1.symm.trans hp) (by decide)
  · exact absurd (h.2.symm.trans hf) (by decide)

theorem pointer_or_byValue (arg : SyscallArg) : arg.Pointer ∨ arg.ByValue := by
  unfold Pointer ByValue
  cases arg.isPtr <;> cases arg.isFnPtr <;> simp

end SyscallArg

structure Syscall where
  name : Str
  nrs : ArchNrs
  /-- The types of the arguments. -/
  args : List SyscallArg := []
  /-- Their names. -/
  argsId : List Str := []
  aliases : List Str := []
  unusedAliases : List Str := []
  implemented : Bool := false
  deriving DecidableEq, Repr

/-- The x86_64 number. -/
def Syscall.nr (sc : Syscall) : ℤ := sc.nrs.x86_64

structure AuxSyscall where
  name : Str
  args : List SyscallArg
  argsId : List Str
  result : Option SyscallArg := none
  deriving DecidableEq, Repr

namespace TypeRegistry

def isPrimitive (R : TypeRegistry) (typeName : Str) : Bool := (R.cPrimitives.get? typeName).isSome

def reduceAlias (R : TypeRegistry) (typeName : Str) : Except Py.Error Str :=
  match R.typeAliases.get? typeName with
  | some target => .ok target
  | none => .error (.keyError typeName)

end TypeRegistry

namespace Syscall

/-- One element of the comprehension in `args_reduce`. -/
def reduceArg (R : TypeRegistry) (sc : Syscall) (arg : SyscallArg) : Except Py.Error SyscallArg :=
  if arg.isPtr || R.isPrimitive arg then .ok arg else
  match R.reduceAlias arg with
  | .ok target => .ok target
  | .error _ => .error (.runtimeError ("Type '" ++ arg ++
      "' not found in type aliases (used in syscall '" ++ sc.name ++ "')"))

/-- Pointers and primitives stay, anything else is replaced by its alias target, once. -/
def argsReduce (R : TypeRegistry) (sc : Syscall) : Except Py.Error (List SyscallArg) :=
  sc.args.mapM (sc.reduceArg R)

end Syscall

def splitArgs (a : Str) : Except Py.Error (SyscallArg × Str) :=
  match Py.rsplitOnce a with
  | [type, id] => .ok (type, id)
  | _ => .error (.runtimeError ("Argument '" ++ a ++ "' is not in the expected format '<type> <id>'"))

def unimpl (name : Str) (nrs : ArchNrs) : Syscall := { name, nrs }

def impl (name : Str) (args : List Str) (nrs : ArchNrs) (aliases : List Str := [])
    (unusedAliases : List Str := []) : Except Py.Error Syscall := do
  let parts ← args.mapM splitArgs
  return { name, nrs, args := parts.map Prod.fst, argsId := parts.map Prod.snd, aliases,
           unusedAliases, implemented := true }

def implAux (name : Str) (args : List Str) (result : Option SyscallArg) :
    Except Py.Error AuxSyscall := do
  let parts ← args.mapM splitArgs
  return { name, args := parts.map Prod.fst, argsId := parts.map Prod.snd, result }

theorem splitArgs_eq_ok_iff {a type id : Str} : splitArgs a = .ok (type, id) ↔ Py.LastWord a type id := by
  rw [← Py.rsplitOnce_eq_pair_iff, splitArgs]
  constructor
  · intro h
    split at h
    · next t w hsplit =>
      cases h
      exact hsplit
    · cases h
  · intro h
    rw [h]

/-- A declaration with a blank inside splits. -/
theorem splitArgs_ok {a : Str} (hhead : a.head?.any (!Py.isSpace ·) = true)
    (hlast : a.getLast?.any (!Py.isSpace ·) = true) (hblank : a.contains ' ' = true) :
    ∃ e, splitArgs a = .ok e := by
  rw [List.contains_iff_mem] at hblank
  obtain ⟨c, hc, hcs⟩ := (Option.any_eq_true _ _).mp hhead
  obtain ⟨d, hd, hds⟩ := (Option.any_eq_true _ _).mp hlast
  rw [Bool.not_eq_true'] at hcs hds
  rcases Py.rsplitOnce_cases a with ⟨_, h⟩ | ⟨lead, w, tail, _, rfl, hlead, hw, htail⟩ | ⟨t, w, _, hl⟩
  · exact absurd (hcs.symm.trans (h c (List.mem_of_head? hc))) Bool.false_ne_true
  · -- Nothing is around the only word, and no blank is in it.
    have hl : lead = [] := by
      by_contra hne
      rw [List.append_assoc, List.head?_append_of_ne_nil _ hne] at hc
      exact absurd (hcs.symm.trans (hlead c (List.mem_of_head? hc))) Bool.false_ne_true
    have ht : tail = [] := by
      by_contra hne
      rw [List.getLast?_append_of_ne_nil _ hne] at hd
      exact absurd (hds.symm.trans (htail d (List.mem_of_getLast? hd))) Bool.false_ne_true
    rw [hl, ht, List.nil_append, List.append_nil] at hblank
    exact absurd (hw.2 _ hblank) (by decide)
  · exact ⟨(t, w), splitArgs_eq_ok_iff.mpr hl⟩

/-- The helper gives every argument type a name. -/
theorem impl_length {name : Str} {args : List Str} {nrs : ArchNrs} {aliases unused : List Str}
    {sc : Syscall} (h : impl name args nrs aliases unused = .ok sc) :
    sc.argsId.length = sc.args.length := by
  unfold impl at h
  cases hp : args.mapM splitArgs with
  | error e => rw [hp] at h; cases h
  | ok parts =>
    rw [hp] at h
    obtain rfl := Except.ok.inj h
    simp only [List.length_map]

variable {R : TypeRegistry} {sc : Syscall} {arg : SyscallArg}

theorem Syscall.reduceArg_of_ptr (h : arg.isPtr = true) : sc.reduceArg R arg = .ok arg := by
  simp only [reduceArg, h, Bool.true_or, if_true]

theorem Syscall.reduceArg_of_primitive {p : Primitive} (h : R.cPrimitives.get? arg = some p) :
    sc.reduceArg R arg = .ok arg := by
  simp only [reduceArg, TypeRegistry.isPrimitive, h, Option.isSome_some, Bool.or_true, if_true]

theorem Syscall.reduceArg_of_alias {target : Str} (hptr : arg.isPtr = false)
    (hp : R.cPrimitives.get? arg = none) (ha : R.typeAliases.get? arg = some target) :
    sc.reduceArg R arg = .ok target := by
  simp only [reduceArg, TypeRegistry.isPrimitive, TypeRegistry.reduceAlias, hptr, hp, ha,
    Option.isSome_none, Bool.or_false, Bool.false_eq_true, if_false]

/-- A type that resolves to a primitive reduces to one that does. -/
theorem Syscall.reduceArg_of_resolves (sc : Syscall) {p : Primitive} (hptr : arg.isPtr = false)
    (h : R.resolvePrimitive arg = .ok p) :
    ∃ r, sc.reduceArg R arg = .ok r ∧ R.resolvePrimitive r = .ok p ∧
      (r = arg ∧ R.cPrimitives.get? arg = some p ∨
        R.cPrimitives.get? arg = none ∧ R.typeAliases.get? arg = some r) := by
  rcases TypeRegistry.resolvePrimitive_cases h with hp | ⟨hp, r, ha, hr⟩
  · exact ⟨arg, reduceArg_of_primitive hp, h, Or.inl ⟨rfl, hp⟩⟩
  · exact ⟨r, reduceArg_of_alias hptr hp ha, hr, Or.inr ⟨hp, ha⟩⟩

/-- What the reduction is for: pointers of both kinds stay, every other argument becomes the name
of a primitive, the one it resolves to. -/
def ReachesBase (R : TypeRegistry) (sc : Syscall) : Prop :=
  ∃ red, sc.argsReduce R = .ok red ∧ red.length = sc.args.length ∧
    ∀ (i : ℕ) arg r, sc.args[i]? = some arg → red[i]? = some r →
      (arg.Pointer → r = arg) ∧
      (¬ arg.Pointer → r ∈ R.cPrimitives.keys ∧ R.resolvePrimitive r = R.resolvePrimitive arg)

/-- An argument the one-step reduction is right about: spelled with a star, a primitive, or an
alias of a primitive that is not spelled like a function pointer. -/
def OneStep (R : TypeRegistry) (arg : SyscallArg) : Prop :=
  arg.isPtr = true ∨ arg ∈ R.cPrimitives.keys ∨
    (arg.isFnPtr = false ∧ ∃ target ∈ R.cPrimitives.keys, R.typeAliases.get? arg = some target)

/-- An accepted registry has no alias for itself. -/
theorem TypeRegistry.alias_ne_self (hv : R.validate = .ok ()) {t : Str}
    (hstar : Py.endsWith t "*" = false) (hp : R.cPrimitives.get? t = none) :
    R.typeAliases.get? t ≠ some t := by
  intro ha
  have hres := (validate_iff.mp hv).1 (t, t) (Dict.get?_eq_some_iff.mp ha)
  refine hres.not_transGen (.single ?_)
  rw [next, R.shape_of_alias hstar hp ha]
  rfl

/-- Everything the reduction of one argument can do. -/
theorem Syscall.reduceArg_cases (sc : Syscall) (R : TypeRegistry) (arg : SyscallArg) :
    (arg.isPtr = true ∨ arg ∈ R.cPrimitives.keys) ∧ sc.reduceArg R arg = .ok arg ∨
    (arg.isPtr = false ∧ R.cPrimitives.get? arg = none) ∧
      ((∃ target, R.typeAliases.get? arg = some target ∧ sc.reduceArg R arg = .ok target) ∨
        ∃ e, sc.reduceArg R arg = .error e) := by
  cases hptr : arg.isPtr with
  | true => exact Or.inl ⟨Or.inl rfl, reduceArg_of_ptr hptr⟩
  | false =>
  cases hp : R.cPrimitives.get? arg with
  | some p => exact Or.inl ⟨Or.inr (Dict.mem_keys_iff.mpr ⟨p, hp⟩), reduceArg_of_primitive hp⟩
  | none =>
  cases ha : R.typeAliases.get? arg with
  | some target => exact Or.inr ⟨⟨rfl, rfl⟩, Or.inl ⟨target, rfl, reduceArg_of_alias hptr hp ha⟩⟩
  | none =>
    refine Or.inr ⟨⟨rfl, rfl⟩, Or.inr ?_⟩
    simp only [reduceArg, TypeRegistry.isPrimitive, TypeRegistry.reduceAlias, hptr, hp, ha,
      Option.isSome_none, Bool.or_false, Bool.false_eq_true, if_false]
    exact ⟨_, rfl⟩

/-- An argument that comes out right takes one step. -/
theorem oneStep_of_reduceArg (hv : R.validate = .ok ()) {r : SyscallArg}
    (hr : sc.reduceArg R arg = .ok r) (hstay : arg.Pointer → r = arg)
    (hbase : ¬ arg.Pointer → r ∈ R.cPrimitives.keys) : OneStep R arg := by
  rcases sc.reduceArg_cases R arg with ⟨h, _⟩ | ⟨⟨hptr, hp⟩, ⟨target, ha, he⟩ | ⟨e, he⟩⟩
  · exact h.imp_right Or.inl
  · obtain rfl := Except.ok.inj (he.symm.trans hr)
    have hfn : arg.isFnPtr = false := by
      rw [← Bool.not_eq_true]
      intro hfn
      -- it would have to stay as it is
      exact TypeRegistry.alias_ne_self hv hptr hp (ha.trans (congrArg some (hstay (Or.inr hfn))))
    have hval : arg.ByValue := ⟨hptr, hfn⟩
    exact Or.inr (Or.inr ⟨hfn, target, hbase hval.not_pointer, ha⟩)
  · rw [he] at hr
    cases hr

/-- And conversely. -/
theorem OneStep.reduceArg (h : OneStep R arg) (sc : Syscall) :
    ∃ r, sc.reduceArg R arg = .ok r ∧ (arg.Pointer → r = arg) ∧
      (¬ arg.Pointer → r ∈ R.cPrimitives.keys ∧ R.resolvePrimitive r = R.resolvePrimitive arg) := by
  by_cases hstay : arg.isPtr = true ∨ arg ∈ R.cPrimitives.keys
  · refine ⟨arg, ?_, fun _ => rfl, fun hnot => ⟨?_, rfl⟩⟩
    · rcases hstay with hptr | hk
      · exact Syscall.reduceArg_of_ptr hptr
      · obtain ⟨p, hp⟩ := Dict.mem_keys_iff.mp hk
        exact Syscall.reduceArg_of_primitive hp
    · exact hstay.resolve_left fun hptr => hnot (Or.inl hptr)
  · rw [not_or] at hstay
    obtain ⟨hptr, hk⟩ := hstay
    obtain ⟨hfn, target, htarget, ha⟩ := (h.resolve_left hptr).resolve_left hk
    have hp : R.cPrimitives.get? arg = none := Dict.get?_eq_none_iff.mpr hk
    rw [Bool.not_eq_true] at hptr
    have hval : arg.ByValue := ⟨hptr, hfn⟩
    refine ⟨target, Syscall.reduceArg_of_alias hptr hp ha, fun hptr' => absurd hptr' hval.not_pointer,
      fun _ => ⟨htarget, ?_⟩⟩
    rw [TypeRegistry.resolvePrimitive_eq (t := arg), hp, ha]

/-- **The reduction reaches base types** exactly for arguments it is one step away from: among the
arguments that generators handle these are not function pointers, and no aliases of aliases. -/
theorem argsReduce_reachesBase_iff (R : TypeRegistry) (hv : R.validate = .ok ()) (sc : Syscall) :
    ReachesBase R sc ↔ ∀ arg ∈ sc.args, OneStep R arg := by
  constructor
  · rintro ⟨red, hred, _, hall⟩ arg harg
    obtain ⟨i, hi⟩ := List.getElem?_of_mem harg
    obtain ⟨r, hr, hok⟩ := Py.mapM_ok_getElem? hred hi
    obtain ⟨hstay, hbase⟩ := hall i arg r hi hr
    exact oneStep_of_reduceArg hv hok hstay fun hnot => (hbase hnot).1
  · intro h
    obtain ⟨red, hred⟩ : ∃ red, sc.argsReduce R = .ok red := by
      refine Py.mapM_exists_ok fun arg harg => ?_
      obtain ⟨r, hr, _⟩ := (h arg harg).reduceArg sc
      exact ⟨r, hr⟩
    refine ⟨red, hred, Py.mapM_ok_length hred, fun i arg r hi hr => ?_⟩
    obtain ⟨r', hr', hok⟩ := Py.mapM_ok_getElem? hred hi
    obtain rfl := Option.some.inj (hr'.symm.trans hr)
    obtain ⟨r'', hok', hprops⟩ := (h arg (List.mem_of_getElem? hi)).reduceArg sc
    obtain rfl := Except.ok.inj (hok.symm.trans hok')
    exact hprops

theorem argsReduce_reachesBase_iff_openat :
    ReachesBase .shippedBare { name := "openat", nrs := {}, args := ["int", "char*", "mode_t"] } :=
  (argsReduce_reachesBase_iff .shippedBare (by decide +kernel) _).mpr fun arg harg => by
    simp only [List.mem_cons, List.not_mem_nil, or_false] at harg
    rcases harg with rfl | rfl | rfl
    · exact Or.inr (Or.inl (by decide +kernel))
    · exact Or.inl (by decide +kernel)
    · exact Or.inr (Or.inr ⟨by decide, "int", by decide +kernel, by decide +kernel⟩)

/-- A syscall that takes a function pointer. -/
def signalCall : Syscall :=
  { name := "signal", nrs := { x86_64 := 48 }, args := ["int", "fn(int)"],
    argsId := ["signum", "handler"], implemented := true }

/-- An alias of an alias. -/
def loffAliases : TypeRegistry :=
  .bare TypeRegistry.shippedPrimitives ⟨[("off_t", "long long"), ("loff_t", "off_t")], by decide⟩ .empty

def seekCall : Syscall :=
  { name := "_llseek", nrs := {}, args := ["loff_t"], argsId := ["offset"], implemented := true }

/-- The reduction fails on the function pointer, and stops at an alias that is no primitive. -/
theorem argsReduce_short :
    (TypeRegistry.shippedBare.validate = .ok () ∧ signalCall.argsReduce .shippedBare =
      .error (.runtimeError "Type 'fn(int)' not found in type aliases (used in syscall 'signal')")) ∧
    loffAliases.validate = .ok () ∧ loffAliases.resolvePrimitive "loff_t" = .ok ⟨8, true⟩ ∧
      seekCall.argsReduce loffAliases = .ok ["off_t"] ∧ loffAliases.isPrimitive "off_t" = false :=
  ⟨⟨by decide +kernel, by decide +kernel⟩, by decide +kernel, by decide +kernel, by decide +kernel,
    by decide +kernel⟩

end Wali
