import LateBind.Module.Construction
import LateBind.Proofs.NativeBlocks
import LateBind.Proofs.Sessions

/-! # Blocks that live as long as a call

Copies of pinned objects are freed at the end of a call from outside, and copies of string arguments
at the end of a native call. Whichever way a call ends, it keeps no other such block alive; but a fault
on the way into native code leaves the copies of the arguments. -/

namespace LateBind

open Exec

variable {α β : Type} {X : MachineError → Prop} {P : MachineState → Prop}

/-- Apart from some that are held, the live blocks of a kind are those of a list, or fewer. -/
def Within (kind : BlockKind) (base held : List UInt64) (s : MachineState) : Prop :=
  ((s.native.heap.live kind).filter (· ∉ held)).Sublist base

/-- Apart from those that pins hold, the pinned copies are those of a list, or fewer. -/
def PinsWithin (base : List UInt64) (s : MachineState) : Prop :=
  Within .pinned base (s.pins.map Pin.block) s

variable {kind : BlockKind} {base held : List UInt64} {s : MachineState} {heap : Heap}

namespace Within

theorem nil_iff : Within kind base [] s ↔ (s.native.heap.live kind).Sublist base := by
  have all : (s.native.heap.live kind).filter (· ∉ []) = s.native.heap.live kind := by
    rw [List.filter_eq_self]
    exact fun a _ => by simp
  rw [Within, all]

theorem of_live (within : Within kind base held s) (same : heap.live kind = s.native.heap.live kind) :
    Within kind base held (s.withHeap heap) := by
  rw [Within, same]
  exact within

theorem free {address : UInt64} (within : Within kind base held s)
    (freed : s.native.heap.free address = .ok heap) : Within kind base held (s.withHeap heap) := by
  have fewer : (heap.live kind).Sublist (s.native.heap.live kind) := by
    rw [Heap.live_free freed]
    exact List.filter_sublist
  exact (fewer.filter _).trans within

/-- A new block is held from now on. -/
theorem hold (within : Within kind base held s) (bytes : Bytes) :
    Within kind base (held ++ [s.native.heap.nextAddress])
      (s.withHeap (s.native.heap.allocBytes bytes kind).2) := by
  have fewer : ((s.native.heap.nextAddress :: s.native.heap.live kind).filter
      (· ∉ held ++ [s.native.heap.nextAddress])).Sublist
        ((s.native.heap.live kind).filter (· ∉ held)) := by
    have both : (fun a => decide (a ∉ held ++ [s.native.heap.nextAddress])) =
        fun a => decide (a ≠ s.native.heap.nextAddress) && decide (a ∉ held) := by
      funext a
      by_cases same : a = s.native.heap.nextAddress <;> simp [same]
    rw [List.filter_cons_of_neg (by simp), both, ← List.filter_filter]
    exact List.filter_sublist
  rw [Within, Heap.live_allocBytes, if_pos rfl]
  exact fewer.trans within

/-- A held block is given back. -/
theorem release {address : UInt64} (within : Within kind base (address :: held) s)
    (freed : s.native.heap.free address = .ok heap) : Within kind base held (s.withHeap heap) := by
  have same : (heap.live kind).filter (· ∉ held) =
      (s.native.heap.live kind).filter (· ∉ address :: held) := by
    rw [Heap.live_free freed, List.filter_filter]
    refine List.filter_congr fun a _ => ?_
    by_cases same : a = address <;> simp [same]
  rw [Within, same]
  exact within

theorem stable (other : kind ≠ .pinned) : Stable (Beside (Within kind base held)) := by
  refine .beside (fun _ _ within => within) ?_ fun s bytes source within => ?_
  · exact fun _ _ _ _ written within => within.of_live (Heap.live_write written kind)
  · refine within.of_live ?_
    rw [Heap.live_allocBytes, if_neg other.symm]

theorem lenient (other : kind ≠ .hglobal) : Lenient (Beside (Within kind base held)) := by
  refine .beside (fun s size within => ?_) (fun s bytes within => ?_) ?_
  · exact within.of_live (by rw [Heap.live_alloc, if_neg other.symm])
  · exact within.of_live (by rw [Heap.live_allocBytes, if_neg other.symm])
  · exact fun _ _ _ freed within => within.free freed

end Within

namespace PinsWithin

theorem stable : Stable (Beside (PinsWithin base)) := by
  refine .beside (fun _ _ within => within) ?_ fun s bytes source within => ?_
  · exact fun _ _ _ _ written within => within.of_live (Heap.live_write written .pinned)
  · rw [PinsWithin, List.map_append]
    exact within.hold bytes

theorem lenient : Lenient (Beside (PinsWithin base)) := by
  refine .beside (fun s size within => ?_) (fun s bytes within => ?_) ?_
  · exact within.of_live (by rw [Heap.live_alloc, if_neg (by decide)])
  · exact within.of_live (by rw [Heap.live_allocBytes, if_neg (by decide)])
  · exact fun _ _ _ freed within => within.free freed

end PinsWithin

/-! ## Computations that end with a value or a fault -/

namespace Exec

/-- The computation throws no exception. -/
def Throwless (x : Exec α) : Prop := ∀ s r, (x s).1 ≠ .error (.exception r)

theorem throwless_pure (a : α) : Throwless (pure a : Exec α) := fun _ _ eq => nomatch eq

theorem throwless_fatal (e : MachineError) : Throwless (fatal e : Exec α) := fun _ _ eq => nomatch eq

theorem throwless_unsupported (gap : Gap) : Throwless (unsupported gap : Exec α) :=
  throwless_fatal _

theorem throwless_get : Throwless (get : Exec MachineState) := fun _ _ eq => nomatch eq

theorem throwless_setHeap (heap : Heap) : Throwless (setHeap heap) := fun _ _ eq => nomatch eq

theorem throwless_setObject (r : ObjRef) (o : Object) : Throwless (setObject r o) :=
  fun _ _ eq => nomatch eq

theorem throwless_native (code : Native α) : Throwless (native code) := fun _ _ eq => nomatch eq

theorem throwless_lift (x : Except MachineError α) : Throwless (lift x) := by
  cases x with
  | ok a => exact throwless_pure a
  | error e => exact throwless_fatal e

theorem Throwless.bind {x : Exec α} {g : α → Exec β} (hx : Throwless x) (hg : ∀ a, Throwless (g a)) :
    Throwless (x >>= g) := by
  intro s r
  rw [bind_apply]
  have first := hx s r
  rcases run : x s with ⟨result, s'⟩
  rw [run] at first
  cases result with
  | ok a => exact hg a s' r
  | error e => exact fun eq => first (by cases eq; rfl)

theorem throwless_forM {g : α → Exec PUnit} {l : List α} (hg : ∀ a, Throwless (g a)) :
    Throwless (l.forM g) := by
  induction l with
  | nil => exact throwless_pure _
  | cons a l ih => exact (hg a).bind fun _ => ih

theorem throwless_object (r : ObjRef) : Throwless (object r) := by
  refine throwless_get.bind fun s => ?_
  split
  · exact throwless_pure _
  · exact throwless_unsupported _

theorem throwless_stringUnits {v : Value} (notNull : v ≠ .null) : Throwless (stringUnits v) := by
  cases v with
  | null => exact absurd rfl notNull
  | ref r =>
    refine (throwless_object r).bind fun o => ?_
    split
    · exact throwless_pure _
    · exact throwless_unsupported _
  | _ => exact throwless_unsupported _

theorem throwless_access (address : UInt64) (result : Heap → Option α) :
    Throwless (access address result) := by
  refine throwless_get.bind fun s => ?_
  split
  · exact throwless_pure _
  · exact throwless_fatal _

end Exec

namespace Machine

variable (m : Machine)

theorem throwless_pinnedBytes (source : PinSource) : Throwless (m.pinnedBytes source) := by
  unfold pinnedBytes
  split
  · refine (throwless_object _).bind fun o => ?_
    split
    · exact (throwless_lift _).bind fun _ => throwless_pure _
    · exact throwless_unsupported _
  · refine (throwless_object _).bind fun o => ?_
    split
    · exact throwless_lift _
    · exact throwless_unsupported _
  · refine (throwless_object _).bind fun o => ?_
    split
    · exact throwless_pure _
    · exact throwless_unsupported _

theorem throwless_refreshPins : Throwless m.refreshPins :=
  throwless_get.bind fun _ => throwless_forM fun _ => (m.throwless_pinnedBytes _).bind fun _ =>
    (throwless_access _ _).bind fun _ => throwless_setHeap _

theorem throwless_takeBack (p : Pin) : Throwless (m.takeBack p) := by
  unfold takeBack
  split
  · refine (throwless_object _).bind fun o => ?_
    split
    · exact (throwless_lift _).bind fun _ => (throwless_access _ _).bind fun _ =>
        (throwless_lift _).bind fun _ => throwless_setObject _ _
    · exact throwless_pure _
  · refine (throwless_object _).bind fun o => ?_
    split
    · exact (throwless_lift _).bind fun _ => (throwless_access _ _).bind fun _ =>
        (throwless_lift _).bind fun _ => throwless_setObject _ _
    · exact throwless_pure _
  · exact throwless_pure _

theorem throwless_takeBackPins : Throwless m.takeBackPins :=
  throwless_get.bind fun _ => throwless_forM m.throwless_takeBack

/-- Around a native call nothing throws; what the function raises is thrown later. -/
theorem throwless_callPinned (call : NativeCall) (address : UInt64) (args : List NativeValue) :
    Throwless (m.callPinned call address args) :=
  m.throwless_refreshPins.bind fun _ => (throwless_native _).bind fun _ =>
    m.throwless_takeBackPins.bind fun _ => throwless_pure _

end Machine

/-! ## Blocks that are freed in the end -/

namespace Exec

/-- Unless it stops at a fault, the computation frees the held blocks, and it makes no others of the
kind that stay. -/
def Frees (kind : BlockKind) (base held : List UInt64) (x : Exec α) : Prop :=
  ∀ s, Within kind base held s → Excused (fun _ => True) (x s) ∨ Within kind base [] (x s).2

theorem Keeps.frees {x : Exec α} (hx : Keeps X (Within kind base []) x) : Frees kind base [] x :=
  fun s within => (hx s within).imp (fun ⟨e, _, eq⟩ => ⟨e, trivial, eq⟩) id

theorem Frees.bind {x : Exec α} {g : α → Exec β} (throwless : Throwless x)
    (hx : Keeps (fun _ => False) (Within kind base held) x) (hg : ∀ a, Frees kind base held (g a)) :
    Frees kind base held (x >>= g) := by
  intro s within
  have kept := hx s within
  have first := throwless s
  rw [bind_apply]
  rcases run : x s with ⟨r, s'⟩
  rw [run] at kept first
  cases r with
  | ok a => exact hg a s' (kept.resolve_left not_excused_ok)
  | error e =>
    cases e with
    | exception o => exact absurd rfl (first o)
    | fatal e => exact .inl ⟨e, trivial, rfl⟩

/-- Blocks that are held are given back one after the other. -/
theorem frees_forM {g : Exec α} (blocks : List UInt64) (hg : Frees kind base [] g) :
    Frees kind base blocks (do blocks.forM free; g) := by
  induction blocks with
  | nil => exact hg
  | cons address blocks ih =>
    intro s within
    have unfolded : (do (address :: blocks).forM free; g) = (do free address; blocks.forM free; g) :=
      bind_assoc (free address) (fun _ => blocks.forM free) fun _ => g
    rw [unfolded]
    cases freed : s.native.heap.free address with
    | ok heap =>
      have frees : free address s = (.ok (), s.withHeap heap) := by simp [free, freed, setHeap]
      rw [bind_ok frees]
      exact ih _ (within.release freed)
    | error fault =>
      refine .inl (Excused.bind ?_ _)
      cases fault with
      | freedBefore => exact ⟨.doubleFree address, trivial, by simp [free, freed, fatal]⟩
      | noBlock => exact ⟨.invalidFree address, trivial, by simp [free, freed, fatal]⟩

end Exec

/-! ## Native calls -/

theorem Native.Spares.keeps {code : Native α} (spares : code.Spares)
    (owned : kind = .pinned ∨ kind = .temp) : Keeps X (Within kind base held) (Exec.native code) := by
  intro s within
  have fewer : ((code s.native).2.heap.live kind).Sublist (s.native.heap.live kind) := by
    obtain ⟨pinned, temp⟩ := spares s.native
    rcases owned with rfl | rfl
    · exact pinned
    · exact temp
  exact .inr ((fewer.filter _).trans within)

theorem Native.Spares.keeps_pins {code : Native α} (spares : code.Spares) :
    Keeps X (PinsWithin base) (Exec.native code) := by
  intro s within
  have kept : Keeps X (Within .pinned base (s.pins.map Pin.block)) (Exec.native code) :=
    spares.keeps (.inl rfl)
  exact kept s within

namespace Machine

variable (m : Machine)

/-- An argument takes at most one block, which is held from now on. -/
theorem frees_passArgument {charSet : CharSet} {t : TypeRef} {v : Value}
    {g : NativeValue × Option UInt64 → Exec β}
    (hg : ∀ passed, Frees .temp base (held ++ passed.2.toList) (g passed)) :
    Frees .temp base held (m.passArgument charSet t v >>= g) := by
  have unheld (x : NativeValue) : Frees .temp base held (g (x, none)) := by
    simpa using hg (x, none)
  unfold passArgument
  split
  · exact unheld _
  · next notNull =>
    rw [bind_assoc]
    have units := agree_stringUnits (X := fun _ => False)
      (Within.stable (by decide) : Stable (Beside (Within .temp base held))) v
    refine .bind (throwless_stringUnits notNull) units.keeps fun units => ?_
    intro s within
    exact hg (_, some _) _ (within.hold (encodeString charSet units))
  · exact unheld _
  · rw [bind_assoc]
    exact .bind (throwless_lift _) (agree_lift (.refl _)).keeps fun x => unheld x

theorem frees_passArguments {charSet : CharSet} {slots : List (TypeRef × Value)}
    {g : List (NativeValue × Option UInt64) → Exec β}
    (hg : ∀ passed, Frees .temp base (held ++ passed.filterMap Prod.snd) (g passed)) :
    Frees .temp base held ((slots.mapM fun (t, v) => m.passArgument charSet t v) >>= g) := by
  induction slots generalizing held g with
  | nil => simpa using hg []
  | cons slot slots ih =>
    rw [List.mapM_cons, bind_assoc]
    refine m.frees_passArgument fun first => ?_
    rw [bind_assoc]
    refine ih fun rest => ?_
    have blocks : (first :: rest).filterMap Prod.snd =
        first.2.toList ++ rest.filterMap Prod.snd := by
      cases block : first.2 <;> simp [block]
    rw [List.append_assoc, ← blocks]
    exact hg (first :: rest)

/-- An import stub frees the copies of its arguments, unless there is a fault. -/
theorem frees_callImport {call : NativeCall} (spares : ∀ address args, (call address args).Spares)
    (method : MethodDef) (info : Import) (args : List Value) :
    Keeps (fun _ => True) (Within .temp base []) (m.callImport call method info args) := by
  have stable (held : List UInt64) : Stable (Beside (Within .temp base held)) :=
    Within.stable (by decide)
  have self : m.Alike (fun _ => False) m := .refl m
  refine (agree_resolveImport (.refl m) (stable []) _ _).keeps.bind fun address => ?_
  refine m.frees_passArguments fun passed => ?_
  refine .bind (m.throwless_callPinned _ _ _)
    (agree_callPinned self (stable _) ((spares _ _).keeps (.inr rfl)).agree).keeps fun outcome => ?_
  refine frees_forM _ (Keeps.frees (X := fun _ => False) ?_)
  exact ((agree_settle (stable []) _).bind fun _ =>
    agree_takeResult self (stable []) _ _ _).keeps

/-! ## Runs -/

/-- In a world that spares blocks, every run keeps a property that stubs keep and that holds whatever
managed code does with blocks of its own. -/
theorem confines_all {P : MachineState → Prop} (stable : Stable (Beside P))
    (lenient : Lenient (Beside P)) (store : ∀ s statics, P s → P { s with statics })
    (indirect : ∀ n address args, Keeps X P (Exec.native (m.world.invoke n address args)))
    (imports : ∀ n method info args, Keeps X P (m.callImport (m.world.invoke n) method info args)) :
    m.Confines m X (Beside P) (fun _ _ => True) fun _ => True where
  alike := .refl m
  stable := stable
  next _ _ := trivial
  jump _ _ _ _ := trivial
  handler _ _ := trivial
  load _ _ := (keeps_loadStatic _).agree
  store _ _ v := (keeps_storeStatic (fun s _ h => store s _ h) v).agree
  indirect _ _ n address args := (indirect n address args).agree
  call _ _ resolves := ⟨resolves, trivial⟩
  missing _ _ h := .inl h
  member _ _ _ _ _ := RuntimeMember.agree_call stable lenient _ _ _
  known {callee} _ := by
    cases isImport : callee.method.importInfo with
    | none => exact .inr ⟨rfl, fun _ _ => trivial⟩
    | some info =>
      exact .inl (agree_invoke_import isImport fun n args => (imports n _ _ _).agree)

variable {m}

theorem keeps_temps_invoke (spares : m.world.Spares) (fuel : Nat) (callee : OwnedMethod)
    (args : List Value) :
    Keeps (fun _ => True) (Within .temp base []) (m.invoke fuel callee args) :=
  ((m.confines_all (Within.stable (by decide)) (Within.lenient (by decide)) (fun _ _ h => h)
    (fun n _ _ => (spares.invoke n _ _).keeps (.inr rfl))
    fun n _ _ _ => m.frees_callImport (fun _ _ => spares.invoke n _ _) _ _ _).agree_invoke trivial _
    _).keeps

theorem keeps_pins_invoke (spares : m.world.Spares) (fuel : Nat) (callee : OwnedMethod)
    (args : List Value) : Keeps X (PinsWithin base) (m.invoke fuel callee args) :=
  ((m.confines_all PinsWithin.stable PinsWithin.lenient (fun _ _ h => h)
    (fun n _ _ => (spares.invoke n _ _).keeps_pins)
    fun n _ _ _ => (agree_callImport (.refl m) PinsWithin.stable PinsWithin.lenient
      (fun _ h => ⟨by rw [h.1], h.2.of_live (by rw [Heap.live_allocBytes, if_neg (by decide)])⟩)
      (fun _ _ => (spares.invoke n _ _).keeps_pins.agree) _ _ _).keeps).agree_invoke trivial _ _).keeps

/-! ## Calls from outside -/

/-- Freeing every pinned copy leaves none, unless one of them cannot be freed. -/
theorem pinned_releasePins (within : PinsWithin base s) (released : (releasePins s).1 = .ok ()) :
    Within .pinned base [] (releasePins s).2 := by
  have frees : Frees .pinned base (s.pins.map Pin.block) ((s.pins.map Pin.block).forM free) := by
    have done : Frees .pinned base [] (pure () : Exec Unit) :=
      Keeps.frees (X := fun _ => False) (keeps_pure ())
    have all := frees_forM (s.pins.map Pin.block) done
    rwa [bind_pure] at all
  rw [releasePins_apply] at released ⊢
  refine (frees { s with pins := [] } within).resolve_left fun ⟨e, _, failed⟩ => ?_
  rw [released] at failed
  cases failed

/-- A call from outside leaves no pins. The copies of string arguments that were made in it are gone
unless it met a fault, and the copies of pinned objects are unless one of them could not be freed. -/
theorem call_frees_blocks (spares : m.world.Spares) (unpinned : s.pins = []) (fuel : Nat)
    (callee : OwnedMethod) (args : List Value) :
    let invoked := m.invoke fuel callee args s
    let after := (m.call fuel callee args s).2
    after.pins = [] ∧
      ((∀ e, invoked.1 ≠ .error (.fatal e)) →
        (after.native.heap.live .temp).Sublist (s.native.heap.live .temp)) ∧
      ((releasePins invoked.2).1 = .ok () →
        (after.native.heap.live .pinned).Sublist (s.native.heap.live .pinned)) := by
  intro invoked after
  have after_eq : after = (releasePins invoked.2).2 := m.snd_call fuel callee args s
  rw [after_eq]
  refine ⟨pins_releasePins _, fun survives => ?_, fun released => ?_⟩
  · have temps := (keeps_temps_invoke spares fuel callee args s (Within.nil_iff.mpr (.refl _))).resolve_left
      fun ⟨e, _, failed⟩ => survives e failed
    have stable : Stable (Beside (Within .temp (s.native.heap.live .temp) [])) :=
      Within.stable (by decide)
    exact Within.nil_iff.mp
      ((keeps_releasePins stable (Within.lenient (by decide)) fun _ h => h).holds temps)
  · have pinned : PinsWithin (s.native.heap.live .pinned) s := by
      rw [PinsWithin, unpinned]
      exact Within.nil_iff.mpr (.refl _)
    have kept := (keeps_pins_invoke spares fuel callee args).holds pinned
    exact Within.nil_iff.mp (pinned_releasePins kept released)

/-- A function that raises. -/
def raising : Script := ⟨"F", [.fail (.raised "no")], .const (.i32 0)⟩

/-- A stub that takes a string. -/
def takingText : MethodDef :=
  { (MethodDef.static "F" .i32).importing "m" with params := [.plain "text" .string] }

/-- A method that pins its text before it hands it to the stub. -/
def pinningText : MethodDef :=
  { MethodDef.static "G" .i32 with
    params := [.plain "text" .string]
    body := some ⟨[], [.ldarg 0, .convI, .pop, .ldarg 0,
      .call (.static ⟨"A", "T"⟩ "F" [.string] .i32), .ret], [], [], true, 1⟩ }

def pinningMachine : Machine :=
  ⟨(Module.start "m" Uuid.zero).withType
    (((TypeDef.ofKind "A.T" .classType).withMethod takingText).withMethod pinningText),
    .build .linux [⟨"m", [("F", raising.body)]⟩]⟩

/-- A session with a text. -/
def oneText : MachineState := ⟨.start, [], #[.str [97]], []⟩

/-- The text is pinned and also copied when the function raises. -/
theorem call_frees_blocks_raising :
    let invoked := pinningMachine.invoke 9 ⟨⟨"A", "T"⟩, pinningText⟩ [.ref ⟨0⟩] oneText
    let called := pinningMachine.call 9 ⟨⟨"A", "T"⟩, pinningText⟩ [.ref ⟨0⟩] oneText
    invoked.2.pins = [⟨0x100000, .str ⟨0⟩⟩] ∧
      called.1 = .error (.unhandled "System.Runtime.InteropServices.SEHException" "no") ∧
      called.2.native.heap.freed = [0x100000, 0x100050] ∧ called.2.pins = [] ∧
      called.2.native.heap.live .temp = [] ∧ called.2.native.heap.live .pinned = [] := by
  intro invoked called
  have spares : pinningMachine.world.Spares :=
    World.spares_build .linux (List.forall_mem_singleton.mpr
      (List.forall_mem_singleton.mpr raising.spares_body))
  have raised : invoked.1 = .error (.exception ⟨1⟩) := by decide +kernel
  have released : (releasePins invoked.2).1 = .ok () := by decide +kernel
  obtain ⟨unpinned, temps, pinned⟩ :=
    call_frees_blocks spares (s := oneText) rfl 9 ⟨⟨"A", "T"⟩, pinningText⟩ [.ref ⟨0⟩]
  refine ⟨by decide +kernel, by decide +kernel, by decide +kernel, unpinned, ?_, ?_⟩
  · refine List.sublist_nil.mp (temps fun e failed => ?_)
    cases raised.symm.trans failed
  · exact List.sublist_nil.mp (pinned released)

end Machine

end LateBind
