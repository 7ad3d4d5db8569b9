import Wali.Autogen.Libc
import Wali.Autogen.Docs

/-!
# The generators describe the same imports

The C prototypes, the Rust declarations, the documented signatures and the native symbols of one
call are written by different code in different type languages. Each language is given a meaning
here, a Wasm value type and where it applies a sign, and the meanings are compared position by
position.
-/

namespace Wali

open Py (Str)

inductive ValType where
  | i32
  | i64
  deriving DecidableEq, Repr

/-- How a value of the primitive is passed. -/
def Primitive.valType (p : Primitive) : ValType := if p.size = 8 then .i64 else .i32

namespace Agreement

/-- The value type and the sign of the C types of parameters. -/
def cMeaning (type : Str) : Option (ValType × Bool) :=
  List.lookup type [
    ("int8_t", (.i32, true)), ("int16_t", (.i32, true)), ("int32_t", (.i32, true)),
    ("int64_t", (.i64, true)), ("uint8_t", (.i32, false)), ("uint16_t", (.i32, false)),
    ("uint32_t", (.i32, false)), ("uint64_t", (.i64, false)), ("WasmMemAddr", (.i32, false)),
    ("WasmTableInternalIdx", (.i32, false))]

def rustMeaning (type : Str) : Option (ValType × Bool) :=
  List.lookup type [
    ("i8", (.i32, true)), ("i16", (.i32, true)), ("i32", (.i32, true)), ("i64", (.i64, true)),
    ("u8", (.i32, false)), ("u16", (.i32, false)), ("u32", (.i32, false)), ("u64", (.i64, false))]

def watMeaning (type : Str) : Option ValType := List.lookup type [("i32", .i32), ("i64", .i64)]

def sigMeaning (c : Char) : Option ValType := List.lookup c [('i', .i32), ('I', .i64)]

theorem meanings_of_primitive {p : Primitive} (h : TypeRegistry.IsWidth p.size) :
    cMeaning p.ctype = some (p.valType, p.signed) ∧
      rustMeaning (Libc.rustName p.witName) = some (p.valType, p.signed) ∧
      watMeaning (Docs.widen p.witName) = some p.valType ∧
      sigMeaning (if p.size = 8 then 'I' else 'i') = some p.valType ∧
      p.ctype ≠ "WasmMemAddr" := by
  obtain ⟨size, signed⟩ := p
  simp only at h
  rcases h with rfl | rfl | rfl | rfl <;> cases signed <;> decide

/-- Pointers are 32-bit offsets, primitives have the usual widths, and no name of the tables could
be taken for a pointer. -/
structure WasmReady (R : TypeRegistry) : Prop where
  ptr : R.cPrimitives.get? "ptr" = some ⟨4, false⟩
  widths : ∀ p ∈ R.cPrimitives.values, TypeRegistry.IsWidth p.size
  names : ∀ k, k ∈ R.cPrimitives.keys ∨ k ∈ R.typeAliases.keys →
    SyscallArg.isPtr k = false ∧ SyscallArg.isFnPtr k = false

/-- Ends in a star and is no function pointer. -/
def DataPtr (arg : SyscallArg) : Prop := arg.isPtr = true ∧ arg.isFnPtr = false

variable {R : TypeRegistry}

/-- A type that resolves is not spelled like a pointer. -/
theorem WasmReady.byValue (h : WasmReady R) {t : SyscallArg} {p : Primitive}
    (hp : R.resolvePrimitive t = .ok p) : t.ByValue := by
  refine h.names t ?_
  rcases TypeRegistry.resolvePrimitive_cases hp with hk | ⟨_, u, hk, _⟩
  · exact Or.inl (Py.Dict.mem_keys_of_mem (Py.Dict.get?_eq_some_iff.mp hk))
  · exact Or.inr (Py.Dict.mem_keys_of_mem (Py.Dict.get?_eq_some_iff.mp hk))

/-- The value type and the sign of an argument, as every generator should describe it. -/
def meaning (R : TypeRegistry) (arg : SyscallArg) : Option (ValType × Bool) :=
  if arg.isPtr || arg.isFnPtr then some (.i32, false)
  else (R.resolvePrimitive arg).toOption.map fun p => (p.valType, p.signed)

/-- What the generators write for one type, and that it has the meaning of the type. -/
theorem WasmReady.type_agrees (h : WasmReady R) {arg : SyscallArg}
    (harg : arg.Pointer ∨ ∃ p, R.resolvePrimitive arg = .ok p) :
    ∃ v s ty rust wat c, meaning R arg = some (v, s) ∧
      (Wamr.argCtype R arg = .ok ty ∧ cMeaning ty = some (v, s)) ∧
      (Libc.rustifyArg R "u32" arg = .ok rust ∧ rustMeaning rust = some (v, s)) ∧
      (Docs.toWasmType R "u32" arg = .ok wat ∧ watMeaning wat = some v) ∧
      (Wamr.nativeSigChar R arg = .ok c ∧ sigMeaning c = some v) ∧
      (ty = "WasmMemAddr" ↔ DataPtr arg) := by
  rcases arg.pointer_or_byValue with hp | hv
  · refine ⟨.i32, false, _, _, _, _, by rw [meaning, hp.or_eq]; rfl,
      ⟨Wamr.argCtype_of_pointer hp, ?_⟩, ⟨Libc.rustifyArg_of_pointer hp, by decide⟩,
      ⟨Docs.toWasmType_of_pointer hp, by decide⟩, ⟨Wamr.nativeSigChar_of_pointer hp, by decide⟩, ?_⟩
    · cases arg.isFnPtr <;> decide
    · unfold DataPtr
      cases hf : arg.isFnPtr with
      | true => simp
      | false => simpa using hp.resolve_right (by rw [hf]; decide)
  · obtain ⟨p, hr⟩ := harg.resolve_left hv.not_pointer
    obtain ⟨hc, hrust, hwat, hsig, hne⟩ :=
      meanings_of_primitive (h.widths p (TypeRegistry.resolvePrimitive_mem hr))
    refine ⟨p.valType, p.signed, _, _, _, _, by rw [meaning, hv.or_eq, hr]; rfl,
      ⟨Wamr.argCtype_of_byValue hv hr, hc⟩, ⟨Libc.rustifyArg_of_byValue hv hr, hrust⟩,
      ⟨Docs.toWasmType_of_byValue hv hr, hwat⟩, ⟨Wamr.nativeSigChar_of_byValue hv hr, hsig⟩, ?_⟩
    exact iff_of_false hne fun hd => absurd (hv.1.symm.trans hd.1) (by decide)

/-- Reducing an argument keeps its meaning. -/
theorem WasmReady.reduce_agrees (h : WasmReady R) (sc : Syscall) {arg : SyscallArg}
    (harg : DataPtr arg ∨ ∃ p, R.resolvePrimitive arg = .ok p) :
    ∃ r, sc.reduceArg R arg = .ok r ∧ meaning R r = meaning R arg ∧
      (DataPtr r ∨ ∃ p, R.resolvePrimitive r = .ok p) := by
  rcases harg with hd | ⟨p, hp⟩
  · exact ⟨arg, Syscall.reduceArg_of_ptr hd.1, rfl, Or.inl hd⟩
  · obtain ⟨r, hr, hpr, _⟩ := sc.reduceArg_of_resolves (h.byValue hp).1 hp
    refine ⟨r, hr, ?_, Or.inr ⟨p, hpr⟩⟩
    rw [meaning, meaning, (h.byValue hp).or_eq, (h.byValue hpr).or_eq, hp, hpr]

/-- One position of a syscall, given what the generators write there. -/
theorem WasmReady.position_agrees (h : WasmReady R) {sc : Syscall} {arg r : SyscallArg}
    (harg : DataPtr arg ∨ ∃ p, R.resolvePrimitive arg = .ok p) (hr : sc.reduceArg R arg = .ok r)
    {ty rust wat : Str} (hty : Wamr.argCtype R r = .ok ty)
    (hrust : Libc.rustifyArg R "u32" r = .ok rust) (hwat : Docs.toWasmType R "u32" arg = .ok wat) :
    (∃ v s, cMeaning ty = some (v, s) ∧ rustMeaning rust = some (v, s) ∧ watMeaning wat = some v) ∧
      (Py.endsWith r "*" = true ↔ ty = "WasmMemAddr") := by
  obtain ⟨r', hr', hmean, hkind⟩ := h.reduce_agrees sc harg
  obtain rfl := Except.ok.inj (hr'.symm.trans hr)
  obtain ⟨v, s, ty', rust', _, _, hm, ⟨hty', hc⟩, ⟨hrust', hru⟩, _, _, hmaddr⟩ :=
    h.type_agrees (hkind.imp_left fun hd => Or.inl hd.1)
  obtain ⟨v', s', _, _, wat', _, hm', _, _, ⟨hwat', hwa⟩, _⟩ :=
    h.type_agrees (harg.imp_left fun hd => Or.inl hd.1)
  obtain rfl := Except.ok.inj (hty'.symm.trans hty)
  obtain rfl := Except.ok.inj (hrust'.symm.trans hrust)
  obtain rfl := Except.ok.inj (hwat'.symm.trans hwat)
  rw [hmean, hm'] at hm
  obtain ⟨rfl, rfl⟩ := Prod.mk.inj (Option.some.inj hm)
  refine ⟨⟨v', s', hc, hru, hwa⟩, ?_⟩
  rw [hmaddr]
  refine ⟨fun hstar => ?_, fun hd => hd.1⟩
  rcases hkind with hd | ⟨p, hp⟩
  · exact hd
  · exact absurd ((h.byValue hp).1.symm.trans hstar) (by decide)

theorem WasmReady.wasmParams_eq (h : WasmReady R) (args : List SyscallArg) (argsId : List Str) :
    Docs.wasmParams R args argsId =
      (args.zip argsId).mapM fun e => (Docs.toWasmType R "u32" e.1).map (e.2, ·) := by
  rw [Docs.wasmParams, h.ptr]
  rfl

theorem WasmReady.wasmParams_getElem? (h : WasmReady R) {args : List SyscallArg}
    {argsId : List Str} {ds : List (Str × Str)} (hds : Docs.wasmParams R args argsId = .ok ds)
    {i : ℕ} {id wat : Str} (hi : ds[i]? = some (id, wat)) :
    ∃ arg, args[i]? = some arg ∧ Docs.toWasmType R "u32" arg = .ok wat := by
  rw [h.wasmParams_eq] at hds
  obtain ⟨e, he, hok⟩ := Py.mapM_ok_getElem?_inv hds hi
  obtain ⟨wat', hwat, heq⟩ := Py.map_eq_ok_iff.mp hok
  obtain ⟨_, rfl⟩ := Prod.mk.inj heq
  exact ⟨e.1, (List.getElem?_zip_eq_some.mp he).1, hwat⟩

theorem WasmReady.rustifyArgs_eq (h : WasmReady R) {sc : Syscall} {red : List SyscallArg}
    (hred : sc.argsReduce R = .ok red) :
    Libc.rustifyArgs R sc = red.mapM (Libc.rustifyArg R "u32") := by
  rw [Libc.rustifyArgs, h.ptr]
  simp only [hred]
  rfl

section Lists

variable {args : List SyscallArg} (argsId : List Str)
variable (hargs : ∀ arg ∈ args, arg.Pointer ∨ ∃ p, R.resolvePrimitive arg = .ok p)

include hargs

/-- The prototype of any argument list: one parameter per argument, under its name. -/
theorem WasmReady.params_ok (h : WasmReady R) :
    ∃ ps, Wamr.params R args argsId = .ok ps ∧ ps.map Prod.snd = (args.zip argsId).map Prod.snd := by
  obtain ⟨ps, hps⟩ : ∃ ps, Wamr.params R args argsId = .ok ps := by
    refine Py.mapM_exists_ok fun e he => ?_
    obtain ⟨_, _, ty, _, _, _, _, ⟨hty, _⟩, _⟩ := h.type_agrees (hargs e.1 (List.of_mem_zip he).1)
    exact ⟨(ty, e.2), by rw [hty]; rfl⟩
  refine ⟨ps, hps, Py.mapM_ok_map (fun e p hok => ?_) hps⟩
  obtain ⟨_, _, rfl⟩ := Py.map_eq_ok_iff.mp hok
  rfl

theorem WasmReady.wasmParams_ok (h : WasmReady R) :
    ∃ ds, Docs.wasmParams R args argsId = .ok ds ∧
      ds.map Prod.fst = (args.zip argsId).map Prod.snd := by
  rw [h.wasmParams_eq]
  obtain ⟨ds, hds⟩ : ∃ ds, ((args.zip argsId).mapM
      fun e => (Docs.toWasmType R "u32" e.1).map (e.2, ·)) = .ok ds := by
    refine Py.mapM_exists_ok fun e he => ?_
    obtain ⟨_, _, _, _, wat, _, _, _, _, ⟨hwat, _⟩, _⟩ :=
      h.type_agrees (hargs e.1 (List.of_mem_zip he).1)
    exact ⟨(e.2, wat), by rw [hwat]; rfl⟩
  refine ⟨ds, hds, Py.mapM_ok_map (fun e p hok => ?_) hds⟩
  obtain ⟨_, _, rfl⟩ := Py.map_eq_ok_iff.mp hok
  rfl

theorem WasmReady.rustifyArg_ok (h : WasmReady R) :
    ∃ rs, args.mapM (Libc.rustifyArg R "u32") = .ok rs := by
  refine Py.mapM_exists_ok fun r hr => ?_
  obtain ⟨_, _, _, rust, _, _, _, _, ⟨hrust, _⟩, _⟩ := h.type_agrees (hargs r hr)
  exact ⟨rust, hrust⟩

theorem WasmReady.nativeSigChar_ok (h : WasmReady R) :
    ∃ sig, args.mapM (Wamr.nativeSigChar R) = .ok sig := by
  refine Py.mapM_exists_ok fun r hr => ?_
  obtain ⟨_, _, _, _, _, c, _, _, _, _, ⟨hc, _⟩, _⟩ := h.type_agrees (hargs r hr)
  exact ⟨c, hc⟩

end Lists

/-- The reduction of a whole list, and that what it gives can be written again. -/
theorem WasmReady.argsReduce_ok (h : WasmReady R) {sc : Syscall}
    (hargs : ∀ arg ∈ sc.args, DataPtr arg ∨ ∃ p, R.resolvePrimitive arg = .ok p) :
    ∃ red, sc.argsReduce R = .ok red ∧
      ∀ r ∈ red, r.Pointer ∨ ∃ p, R.resolvePrimitive r = .ok p := by
  obtain ⟨red, hred⟩ : ∃ red, sc.argsReduce R = .ok red := by
    refine Py.mapM_exists_ok fun arg harg => ?_
    obtain ⟨r, hr, _⟩ := h.reduce_agrees sc (hargs arg harg)
    exact ⟨r, hr⟩
  refine ⟨red, hred, fun r hr => ?_⟩
  obtain ⟨i, hi⟩ := List.getElem?_of_mem hr
  obtain ⟨arg, harg, hok⟩ := Py.mapM_ok_getElem?_inv hred hi
  obtain ⟨r', hr', _, hkind⟩ := h.reduce_agrees sc (hargs arg (List.mem_of_getElem? harg))
  obtain rfl := Except.ok.inj (hr'.symm.trans hok)
  exact hkind.imp_left fun hd => Or.inl hd.1

/-- The prototype, the body, the Rust declaration and the documentation of a syscall agree: the same
parameters in the same order, with the same value types and, in C and Rust, the same signs; the body
wraps the memory addresses and passes as many arguments as its number says. -/
def SyscallAgrees (R : TypeRegistry) (sc : Syscall) : Prop :=
  ∃ ps call rs ds, Wamr.declrParams R sc = .ok ps ∧ Wamr.implCall R sc = .ok call ∧
    Libc.rustifyArgs R sc = .ok rs ∧ Docs.wasmParams R sc.args sc.argsId = .ok ds ∧
    ps.map Prod.snd = sc.argsId ∧ ds.map Prod.fst = sc.argsId ∧
    call.args.map Prod.fst = sc.argsId ∧ rs.length = sc.argsId.length ∧
    call.arity = sc.argsId.length ∧
    ∀ (i : ℕ) ty rust wat maddr, (ps.map Prod.fst)[i]? = some ty → rs[i]? = some rust →
      (ds.map Prod.snd)[i]? = some wat → (call.args.map Prod.snd)[i]? = some maddr →
      (∃ v s, cMeaning ty = some (v, s) ∧ rustMeaning rust = some (v, s) ∧
        watMeaning wat = some v) ∧
      (maddr = true ↔ ty = "WasmMemAddr")

theorem syscall_agrees (h : WasmReady R) (sc : Syscall) (hlen : sc.argsId.length = sc.args.length)
    (hargs : ∀ arg ∈ sc.args, DataPtr arg ∨ ∃ p, R.resolvePrimitive arg = .ok p) :
    SyscallAgrees R sc := by
  obtain ⟨red, hred, hkind⟩ := h.argsReduce_ok hargs
  have hredlen : red.length = sc.argsId.length := (Py.mapM_ok_length hred).trans hlen.symm
  obtain ⟨ps, hps, hpsid⟩ := h.params_ok sc.argsId hkind
  obtain ⟨rs, hrs⟩ := h.rustifyArg_ok hkind
  obtain ⟨ds, hds, hdsid⟩ := h.wasmParams_ok sc.argsId
    fun arg harg => (hargs arg harg).imp_left fun hd => Or.inl hd.1
  have hdeclr : Wamr.declrParams R sc = .ok ps := by rw [Wamr.declrParams, hred]; exact hps
  have hcall : Wamr.implCall R sc = .ok ⟨red.length, Wamr.callArgs red sc.argsId⟩ := by
    rw [Wamr.implCall, hred]
    rfl
  refine ⟨ps, _, rs, ds, hdeclr, hcall, (h.rustifyArgs_eq hred).trans hrs, hds, ?_, ?_, ?_,
    (Py.mapM_ok_length hrs).trans hredlen, hredlen, ?_⟩
  · rw [hpsid, List.map_snd_zip hredlen.ge]
  · rw [hdsid, List.map_snd_zip hlen.le]
  · rw [Wamr.callArgs, List.map_map]
    exact List.map_snd_zip hredlen.ge
  intro i ty rust wat maddr hp hr hd hc
  simp only [Wamr.callArgs, List.getElem?_map, Option.map_eq_some_iff] at hp hd hc
  obtain ⟨⟨_, id⟩, hp, rfl⟩ := hp
  obtain ⟨⟨id', _⟩, hd, rfl⟩ := hd
  obtain ⟨_, ⟨e, he, rfl⟩, rfl⟩ := hc
  obtain ⟨r, hri, _, hty⟩ := (Wamr.params_getElem? hps).mp hp
  obtain ⟨r', hri', hrust⟩ := Py.mapM_ok_getElem?_inv hrs hr
  obtain rfl := Option.some.inj (hri.symm.trans hri')
  obtain rfl := Option.some.inj (hri.symm.trans (List.getElem?_zip_eq_some.mp he).1)
  -- the documentation reads the declared argument, the other three the reduced one
  obtain ⟨arg, harg, hwat⟩ := h.wasmParams_getElem? hds hd
  obtain ⟨r', hri', hok⟩ := Py.mapM_ok_getElem? hred harg
  obtain rfl := Option.some.inj (hri.symm.trans hri')
  exact h.position_agrees (hargs arg (List.mem_of_getElem? harg)) hok hty hrust hwat

/-- The prototype, the native symbol and the documentation of an auxiliary call agree in the value
types of the parameters. -/
def AuxAgrees (R : TypeRegistry) (aux : AuxSyscall) : Prop :=
  ∃ ps sig ds, Wamr.params R aux.args aux.argsId = .ok ps ∧
    Wamr.auxSymbolsParams R aux = .ok sig ∧ Docs.wasmParams R aux.args aux.argsId = .ok ds ∧
    sig.length = aux.args.length ∧
    ps.map Prod.snd = (aux.args.zip aux.argsId).map Prod.snd ∧
    ds.map Prod.fst = (aux.args.zip aux.argsId).map Prod.snd ∧
    ∀ (i : ℕ) ty c wat, (ps.map Prod.fst)[i]? = some ty → sig[i]? = some c →
      (ds.map Prod.snd)[i]? = some wat →
      ∃ v s, cMeaning ty = some (v, s) ∧ sigMeaning c = some v ∧ watMeaning wat = some v

theorem aux_agrees (h : WasmReady R) (aux : AuxSyscall)
    (hargs : ∀ arg ∈ aux.args, arg.Pointer ∨ ∃ p, R.resolvePrimitive arg = .ok p) :
    AuxAgrees R aux := by
  obtain ⟨ps, hps, hpsid⟩ := h.params_ok aux.argsId hargs
  obtain ⟨sig, hsig⟩ := h.nativeSigChar_ok hargs
  obtain ⟨ds, hds, hdsid⟩ := h.wasmParams_ok aux.argsId hargs
  refine ⟨ps, sig, ds, hps, hsig, hds, Py.mapM_ok_length hsig, hpsid, hdsid, ?_⟩
  intro i ty c wat hp hc hd
  simp only [List.getElem?_map, Option.map_eq_some_iff] at hp hd
  obtain ⟨⟨_, id⟩, hp, rfl⟩ := hp
  obtain ⟨⟨id', _⟩, hd, rfl⟩ := hd
  obtain ⟨arg, hi, _, hty⟩ := (Wamr.params_getElem? hps).mp hp
  obtain ⟨arg', hi', hchar⟩ := Py.mapM_ok_getElem?_inv hsig hc
  obtain rfl := Option.some.inj (hi.symm.trans hi')
  obtain ⟨arg', hi', hwat⟩ := h.wasmParams_getElem? hds hd
  obtain rfl := Option.some.inj (hi.symm.trans hi')
  obtain ⟨v, s, ty', _, wat', c', _, ⟨hty', hc'⟩, _, ⟨hwat', hwa⟩, ⟨hchar', hsi⟩, _⟩ :=
    h.type_agrees (hargs arg (List.mem_of_getElem? hi))
  obtain rfl := Except.ok.inj (hty'.symm.trans hty)
  obtain rfl := Except.ok.inj (hwat'.symm.trans hwat)
  obtain rfl := Except.ok.inj (hchar'.symm.trans hchar)
  exact ⟨v, s, hc', hsi, hwa⟩

/-- Over a registry with 32-bit pointers, the generators agree on every call. -/
theorem generators_agree (R : TypeRegistry) (h : WasmReady R) :
    (∀ name args nrs aliases unused sc, impl name args nrs aliases unused = .ok sc →
      (∀ arg ∈ sc.args, DataPtr arg ∨ ∃ p, R.resolvePrimitive arg = .ok p) →
      SyscallAgrees R sc) ∧
    (∀ aux : AuxSyscall,
      (∀ arg ∈ aux.args, arg.Pointer ∨ ∃ p, R.resolvePrimitive arg = .ok p) →
      AuxAgrees R aux) :=
  ⟨fun _ _ _ _ _ sc himpl hargs => syscall_agrees h sc (impl_length himpl) hargs,
    fun aux hargs => aux_agrees h aux hargs⟩

theorem wasmReady_shippedBare : WasmReady TypeRegistry.shippedBare where
  ptr := by decide
  widths := by decide
  names := by
    have hkeys : ∀ k ∈ TypeRegistry.shippedBare.cPrimitives.keys ++
        TypeRegistry.shippedBare.typeAliases.keys,
        SyscallArg.isPtr k = false ∧ SyscallArg.isFnPtr k = false := by decide +kernel
    exact fun k hk => hkeys k (List.mem_append.mpr hk)

/-- `__wasm_thread_spawn` as shipped. -/
def threadSpawn : AuxSyscall :=
  { name := "__wasm_thread_spawn", args := ["fn(int, void*)", "void*"],
    argsId := ["wasm_start_fn", "args"], result := some "int" }

theorem generators_agree_shipped :
    SyscallAgrees TypeRegistry.shippedBare Wamr.openCall ∧
      AuxAgrees TypeRegistry.shippedBare threadSpawn := by
  obtain ⟨hsyscall, haux⟩ := generators_agree TypeRegistry.shippedBare wasmReady_shippedBare
  constructor
  · refine hsyscall "open" ["char* pathname", "int flags", "mode_t mode"] ⟨2, -1, -1⟩ [] []
      Wamr.openCall (by decide +kernel) fun arg harg => ?_
    simp only [Wamr.openCall, List.mem_cons, List.not_mem_nil, or_false] at harg
    rcases harg with rfl | rfl | rfl
    · exact Or.inl ⟨by decide, by decide⟩
    · exact Or.inr ⟨⟨4, true⟩, by decide +kernel⟩
    · exact Or.inr ⟨⟨4, true⟩, by decide +kernel⟩
  · have hptr : ∀ arg ∈ threadSpawn.args, SyscallArg.Pointer arg := by decide
    exact haux threadSpawn fun arg harg => Or.inl (hptr arg harg)

/-- A registry in which pointers take eight bytes. -/
def widePtr : TypeRegistry :=
  .bare ⟨[("ptr", ⟨8, false⟩)], by decide⟩ Py.Dict.empty Py.Dict.empty

/-- An integer of sixteen bytes. -/
def wideInt : TypeRegistry :=
  .bare ⟨[("ptr", ⟨4, false⟩), ("int128", ⟨16, true⟩)], by decide⟩ Py.Dict.empty Py.Dict.empty

/-- An alias for a primitive that is spelled like a pointer. -/
def starredName : TypeRegistry :=
  .bare ⟨[("ptr", ⟨4, false⟩), ("long*", ⟨8, true⟩)], by decide⟩ ⟨[("cookie", "long*")], by decide⟩
    Py.Dict.empty

/-- An alias that is spelled like a function pointer. -/
def functionName : TypeRegistry :=
  .bare ⟨[("ptr", ⟨4, false⟩), ("long", ⟨8, true⟩)], by decide⟩ ⟨[("fn(int)", "long")], by decide⟩
    Py.Dict.empty

/-- A syscall with one argument. -/
def taking (type : Str) : Syscall :=
  { name := "brk", nrs := ⟨12, 214, 214⟩, args := [type], argsId := ["x"], implemented := true }

/-- With eight-byte pointers the engine still takes 32-bit addresses, while Rust and the pages say
64; sixteen bytes have no type; and a name that looks like a pointer is one to the generator that
sees it, before the reduction or after it. -/
theorem generators_disagree :
    (impl "brk" ["void* x"] ⟨12, 214, 214⟩ [] [] = .ok (taking "void*") ∧
      Wamr.declrParams widePtr (taking "void*") = .ok [("WasmMemAddr", "x")] ∧
      Libc.rustifyArgs widePtr (taking "void*") = .ok ["u64"] ∧
      Docs.wasmParams widePtr ["void*"] ["x"] = .ok [("x", "i64")]) ∧
    (impl "brk" ["int128 x"] ⟨12, 214, 214⟩ [] [] = .ok (taking "int128") ∧
      wideInt.resolvePrimitive "int128" = .ok ⟨16, true⟩ ∧
      Wamr.declrParams wideInt (taking "int128") = .ok [("int128_t", "x")] ∧
      cMeaning "int128_t" = none) ∧
    (impl "brk" ["cookie x"] ⟨12, 214, 214⟩ [] [] = .ok (taking "cookie") ∧
      starredName.resolvePrimitive "cookie" = .ok ⟨8, true⟩ ∧
      Wamr.declrParams starredName (taking "cookie") = .ok [("WasmMemAddr", "x")] ∧
      Docs.wasmParams starredName ["cookie"] ["x"] = .ok [("x", "i64")]) ∧
    (impl "brk" ["fn(int) x"] ⟨12, 214, 214⟩ [] [] = .ok (taking "fn(int)") ∧
      functionName.resolvePrimitive "fn(int)" = .ok ⟨8, true⟩ ∧
      Wamr.declrParams functionName (taking "fn(int)") = .ok [("int64_t", "x")] ∧
      Docs.wasmParams functionName ["fn(int)"] ["x"] = .ok [("x", "i32")]) ∧
    cMeaning "WasmMemAddr" = some (.i32, false) ∧ rustMeaning "u64" = some (.i64, false) ∧
    watMeaning "i64" = some .i64 ∧ cMeaning "int64_t" = some (.i64, true) ∧
    watMeaning "i32" = some .i32 :=
  ⟨by decide +kernel, by decide +kernel, by decide +kernel, by decide +kernel, by decide⟩

end Agreement

end Wali
