import LateBind.Proofs.RunAgreement
import LateBind.Proofs.Statics

/-! # What computations leave alone

A machine agrees with itself, and what that says of one state is that a computation keeps a property.
Only few things change a static field, call a native function, or make and free blocks of memory. -/

namespace LateBind

variable {α β : Type} {X : MachineError → Prop} {P : MachineState → Prop}

namespace Exec

/-- The property holds after a computation, also after one that stops, when it held before. Nothing
is said of a run that ends with an excused fault. -/
def Keeps (X : MachineError → Prop) (P : MachineState → Prop) (x : Exec α) : Prop :=
  ∀ s, P s → Excused X (x s) ∨ P (x s).2

/-- A state with the property, beside itself. -/
def Beside (P : MachineState → Prop) (s s' : MachineState) : Prop := s' = s ∧ P s

theorem Agree.keeps {x : Exec α} (h : Agree X (Beside P) x x) : Keeps X P x :=
  fun s holds => (h s s ⟨rfl, holds⟩).imp id fun after => after.2.2

theorem Keeps.agree {x : Exec α} (h : Keeps X P x) : Agree X (Beside P) x x := by
  intro s s' ⟨same, holds⟩
  subst same
  exact (h s' holds).imp id fun after => ⟨rfl, rfl, after⟩

theorem Keeps.bind {x : Exec α} {g : α → Exec β} (hx : Keeps X P x) (hg : ∀ a, Keeps X P (g a)) :
    Keeps X P (x >>= g) :=
  (hx.agree.bind fun a => (hg a).agree).keeps

/-- When no fault is excused, the property always holds in the end. -/
theorem Keeps.holds {x : Exec α} {s : MachineState} (hx : Keeps (fun _ => False) P x) (h : P s) :
    P (x s).2 :=
  (hx s h).resolve_left fun ⟨_, impossible, _⟩ => impossible

theorem keeps_pure (a : α) : Keeps X P (pure a : Exec α) := (agree_pure a).keeps

theorem keeps_fatal (e : MachineError) : Keeps X P (fatal e : Exec α) := (agree_fatal e).keeps

/-! ## Properties -/

/-- The property looks neither at objects nor at what memory holds, and it allows pins. -/
theorem Stable.beside (objects : ∀ (s : MachineState) objects, P s → P { s with objects })
    (write : ∀ (s : MachineState) {address : UInt64} {bytes : Bytes} {heap : Heap},
      s.native.heap.write? address bytes = some heap → P s → P (s.withHeap heap))
    (pin : ∀ (s : MachineState) (bytes : Bytes) (source : PinSource), P s →
      P { s.withHeap (s.native.heap.allocBytes bytes .pinned).2 with
          pins := s.pins ++ [⟨s.native.heap.nextAddress, source⟩] }) :
    Stable (Beside P) where
  statics {s _} h := ⟨s.statics, h.1⟩
  objects {s _} o h := ⟨by rw [h.1], objects s o h.2⟩
  write {s _ _ _ _} written h := ⟨by rw [h.1], write s written h.2⟩
  pin {s _} bytes source h := ⟨by rw [h.1], pin s bytes source h.2⟩

/-- The property allows that managed code makes and frees blocks. -/
theorem Lenient.beside
    (zeros : ∀ (s : MachineState) size, P s → P (s.withHeap (s.native.heap.alloc size .hglobal).2))
    (bytes : ∀ (s : MachineState) bytes, P s →
      P (s.withHeap (s.native.heap.allocBytes bytes .hglobal).2))
    (free : ∀ (s : MachineState) {address : UInt64} {heap : Heap},
      s.native.heap.free address = .ok heap → P s → P (s.withHeap heap)) :
    Lenient (Beside P) where
  statics {s _} h := ⟨s.statics, h.1⟩
  zeros {s _} size h := ⟨by rw [h.1], zeros s size h.2⟩
  bytes {s _} b h := ⟨by rw [h.1], bytes s b h.2⟩
  free {s _ _ _} freed h := ⟨by rw [h.1], free s freed h.2⟩

/-- The property looks at nothing but static fields and the functions that were called. -/
def Blind (P : MachineState → Prop) : Prop :=
  ∀ s s' : MachineState, s'.statics = s.statics → s'.native.calls = s.native.calls → P s → P s'

theorem Blind.stable (blind : Blind P) : Stable (Beside P) :=
  .beside (fun s _ => blind s _ rfl rfl) (fun s _ _ _ _ => blind s _ rfl rfl)
    fun s _ _ => blind s _ rfl rfl

theorem Blind.lenient (blind : Blind P) : Lenient (Beside P) :=
  .beside (fun s _ => blind s _ rfl rfl) (fun s _ => blind s _ rfl rfl)
    fun s _ _ _ => blind s _ rfl rfl

end Exec

open Exec

namespace Machine

variable {m : Machine}

theorem keeps_loadStatic (f : FieldRef) : Keeps X P (m.loadStatic f) := by
  intro s h
  obtain ⟨e, eq⟩ | ⟨c, v, -, -, eq⟩ := m.loadStatic_cases f s
  · rw [eq]
    exact .inr h
  · rw [eq]
    exact .inr h

theorem keeps_storeStatic {f : FieldRef} (store : ∀ s w, P s → P (s.setStatic f w)) (v : Value) :
    Keeps X P (m.storeStatic f v) := by
  intro s h
  obtain ⟨e, eq⟩ | ⟨c, bytes, -, -, eq⟩ := m.storeStatic_cases f v s
  · rw [eq]
    exact .inr h
  · rw [eq]
    exact .inr (store s _ h)

theorem keeps_exitValue (callee : OwnedMethod) (r : Exit × Frame) :
    Keeps X P (exitValue callee r) := (agree_exitValue callee r).keeps

/-- Freeing what is pinned keeps what allows that there are no pins. -/
theorem keeps_releasePins (stable : Stable (Beside P)) (lenient : Lenient (Beside P))
    (unpin : ∀ s, P s → P { s with pins := [] }) : Keeps X P releasePins :=
  (agree_releasePins stable lenient fun s _ h => ⟨by rw [h.1], unpin s h.2⟩).keeps

/-- A run keeps what holds at a place that it comes to, when it keeps that from there on. -/
theorem Leads.keeps_run {f f' : Frame} {s s' : MachineState} (leads : m.Leads f s f' s')
    (keeps : ∀ n, Keeps Starvation P (m.run n f')) (holds : P s') (n : Nat) :
    Excused Starvation (m.run n f s) ∨ P (m.run n f s).2 := by
  obtain ⟨d, k, go, starve⟩ := leads
  by_cases short : n < k + d
  · exact .inl ⟨_, rfl, starve n short⟩
  · obtain ⟨n, rfl⟩ : ∃ n', n = n' + d := ⟨n - d, by omega⟩
    rw [go n (by omega)]
    exact keeps n s' holds

/-- An import stub changes no static field, and it calls native code. -/
theorem keeps_invoke_import_of_blind (blind : Blind P)
    (native : ∀ n address args, Keeps X P (Exec.native (m.world.invoke n address args)))
    {callee : OwnedMethod} {info : Import} (isImport : callee.method.importInfo = some info)
    (n : Nat) (args : List Value) : Keeps X P (m.invoke n callee args) := by
  refine (agree_invoke_import isImport (fun n args => ?_) n args).keeps
  refine agree_callImport (.refl m) blind.stable blind.lenient ?_ (fun _ _ => (native n _ _).agree)
    _ _ args
  intro s s' bytes ⟨same, h⟩
  subst same
  exact ⟨rfl, blind s' _ rfl rfl h⟩

end Machine

end LateBind
