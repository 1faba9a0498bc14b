import LateBind.Native.Script
import LateBind.Native.System
import LateBind.Proofs.NativeCalls

/-! # Blocks that native code leaves alone

Scripts and the functions of the system make no blocks of the kinds that a call owns: copies of pinned
objects and of string arguments. -/

namespace LateBind

/-! ## Live blocks -/

namespace Heap

variable {h h' : Heap} {address : UInt64}

/-- Where the live blocks of a kind start, latest first. -/
def live (h : Heap) (kind : BlockKind) : List UInt64 :=
  (h.blocks.filter (·.kind = kind)).map Block.start

theorem live_alloc (h : Heap) (size : Nat) (made kind : BlockKind) : (h.alloc size made).2.live kind =
    if made = kind then h.nextAddress :: h.live kind else h.live kind := by
  by_cases same : made = kind <;> simp [live, alloc, add, Block.zeros, same]

theorem live_allocBytes (h : Heap) (bytes : Bytes) (made kind : BlockKind) :
    (h.allocBytes bytes made).2.live kind =
      if made = kind then h.nextAddress :: h.live kind else h.live kind := by
  by_cases same : made = kind <;>
    simp [live, allocBytes, add, Block.ofBytes, Block.zeros, Block.write, same]

theorem live_free (freed : h.free address = .ok h') (kind : BlockKind) :
    h'.live kind = (h.live kind).filter (· != address) := by
  unfold free at freed
  split at freed
  · cases freed
    simp [live, List.filter_map, List.filter_filter, Function.comp_def, Bool.and_comm]
  · cases freed

theorem live_write {bytes : Bytes} (written : h.write? address bytes = some h') (kind : BlockKind) :
    h'.live kind = h.live kind := by
  obtain ⟨⟨block, offset⟩, -, rfl⟩ := Option.map_eq_some_iff.mp written
  have same (b : Block) :
      (if b.start = block.start then b.write offset bytes else b).kind = b.kind ∧
        (if b.start = block.start then b.write offset bytes else b).start = b.start := by
    split <;> exact ⟨rfl, rfl⟩
  simp only [live, List.filter_map, List.map_map, Function.comp_def, same]

end Heap

/-! ## Native code -/

namespace Native

variable {α β : Type}

/-- Native code leaves no pinned copy and no copy of an argument that was not there. -/
def Spares (x : Native α) : Prop := ∀ p : NativeState,
  ((x p).2.heap.live .pinned).Sublist (p.heap.live .pinned) ∧
    ((x p).2.heap.live .temp).Sublist (p.heap.live .temp)

theorem spares_of_heap {x : Native α} (same : ∀ p, (x p).2.heap = p.heap) : Spares x := by
  intro p
  rw [same]
  exact ⟨.refl _, .refl _⟩

theorem spares_pure (a : α) : Spares (pure a : Native α) := spares_of_heap fun _ => rfl

theorem spares_throw (fault : NativeFault) : Spares (throw fault : Native α) :=
  spares_of_heap fun _ => rfl

theorem spares_get : Spares (get : Native NativeState) := spares_of_heap fun _ => rfl

theorem Spares.bind {x : Native α} {g : α → Native β} (hx : Spares x) (hg : ∀ a, Spares (g a)) :
    Spares (x >>= g) := by
  intro p
  have first := hx p
  rw [bind_apply]
  rcases run : x p with ⟨r, p'⟩
  rw [run] at first
  cases r with
  | ok a =>
    have second := hg a p'
    exact ⟨second.1.trans first.1, second.2.trans first.2⟩
  | error fault => exact first

theorem Spares.map {x : Native α} (hx : Spares x) (g : α → β) : Spares (g <$> x) := by
  rw [map_eq_pure_bind]
  exact hx.bind fun _ => spares_pure _

theorem spares_access (address : UInt64) (result : Heap → Option α) :
    Spares (access address result) := by
  refine spares_get.bind fun p => ?_
  split
  · exact spares_pure _
  · exact spares_throw _

theorem spares_change {address : UInt64} {result : Heap → Option Heap}
    (same : ∀ h h', result h = some h' → ∀ kind, h'.live kind = h.live kind) :
    Spares (change address result) := by
  intro p
  cases changed : result p.heap with
  | none =>
    have stops : change address result p = (.error (.invalidAddress address), p) := by
      have got : (get : Native NativeState) p = (.ok p, p) := rfl
      have failed : access address result p = (.error (.invalidAddress address), p) := by
        simp only [access, bind_apply, got, changed]
        rfl
      simp only [change, bind_apply, failed]
    rw [stops]
    exact ⟨.refl _, .refl _⟩
  | some heap =>
    have done : change address result p = (.ok (), { p with heap }) := by
      simp only [change, bind_apply, access_apply changed, modify_apply]
    rw [done, same _ _ changed, same _ _ changed]
    exact ⟨.refl _, .refl _⟩

theorem spares_write (address : UInt64) (bytes : Bytes) : Spares (write address bytes) :=
  spares_change fun _ _ => Heap.live_write

theorem spares_writeInt32 (address : UInt64) (v : Int32) : Spares (writeInt32 address v) :=
  spares_change fun _ _ => Heap.live_write

theorem spares_writePointer (address : UInt64) (v : UInt64) : Spares (writePointer address v) :=
  spares_change fun _ _ => Heap.live_write

theorem spares_allocStatic (bytes : Bytes) : Spares (allocStatic bytes) := by
  intro p
  have made (kind : BlockKind) (other : .static ≠ kind) :
      (allocStatic bytes p).2.heap.live kind = p.heap.live kind := by
    change (p.heap.allocBytes bytes .static).2.live kind = _
    rw [Heap.live_allocBytes, if_neg other]
  rw [made _ (by decide), made _ (by decide)]
  exact ⟨.refl _, .refl _⟩

theorem spares_note (n : Note) : Spares (note n) := spares_of_heap fun _ => rfl

theorem spares_argument (kind : String) (convert : NativeValue → Option α) (args : List NativeValue)
    (index : Nat) : Spares (argument kind convert args index) := by
  unfold argument
  split
  · exact spares_pure _
  · exact spares_throw _

theorem spares_openLibrary (cx : NativeContext) (name : String) (flags : Int32) :
    Spares (cx.openLibrary name flags) := spares_of_heap fun _ => rfl

end Native

open Native

/-! ### Scripts and functions of the system -/

/-- A function whose calls spare blocks when the calls of other functions do. -/
def NativeBody.Spares (body : NativeBody) : Prop := ∀ cx : NativeContext,
  (∀ address args, Native.Spares (cx.call address args)) → ∀ args, Native.Spares (body cx args)

namespace Script

variable {cx : NativeContext} (calls : ∀ address args, Native.Spares (cx.call address args))

theorem spares_locate (args : List NativeValue) (place : Place) :
    Native.Spares (locate args place) :=
  (spares_argument _ _ _ _).bind fun _ => spares_pure _

theorem spares_readText (width : CharWidth) (address : UInt64) :
    Native.Spares (readText width address) := by
  cases width <;> exact spares_access _ _

theorem spares_readTexts (width : CharWidth) (table : UInt64) (count : Nat) :
    Native.Spares (readTexts width table count) := by
  induction count generalizing table with
  | zero => exact spares_pure _
  | succ count ih =>
    refine (spares_access _ _).bind fun address => ?_
    have rest (text : Option String) :
        Native.Spares (do return text :: (← readTexts width (table + 8) count)) :=
      (ih _).bind fun _ => spares_pure _
    dsimp only
    split
    · exact (spares_pure _).bind rest
    · exact ((spares_readText _ _).map _).bind rest

include calls

theorem spares_perform (args : List NativeValue) (last : NativeValue) (action : Action) :
    Native.Spares (perform cx args last action) := by
  have keep (n : Note) : Native.Spares (do note n; return ({ last } : Outcome)) :=
    (spares_note n).bind fun _ => spares_pure _
  have give (v : NativeValue) : Native.Spares (do note (.value v); return ({ last := v } : Outcome)) :=
    (spares_note _).bind fun _ => spares_pure _
  cases action with
  | readText width place =>
    refine (spares_locate _ _).bind fun address => ?_
    split
    · exact keep _
    · exact (spares_readText _ _).bind fun _ => (spares_note _).bind fun _ => spares_pure _
  | readTexts width index count =>
    refine (spares_argument _ _ _ _).bind fun table => ?_
    dsimp only
    split
    · exact (spares_pure _).bind fun _ => keep _
    · exact (spares_readTexts _ _ _).bind fun _ => keep _
  | readBytes place length =>
    exact (spares_locate _ _).bind fun _ => (spares_access _ _).bind fun _ => keep _
  | readInt32 place =>
    exact (spares_locate _ _).bind fun _ => (spares_access _ _).bind fun _ => give _
  | readPointer place =>
    exact (spares_locate _ _).bind fun _ => (spares_access _ _).bind fun _ => give _
  | write place bytes =>
    exact (spares_locate _ _).bind fun _ => (spares_write _ _).bind fun _ => keep _
  | writeInt32 place v =>
    exact (spares_locate _ _).bind fun _ => (spares_writeInt32 _ _).bind fun _ => keep _
  | writePointer place v =>
    exact (spares_locate _ _).bind fun _ => (spares_writePointer _ _).bind fun _ => keep _
  | increment place =>
    exact (spares_locate _ _).bind fun _ => (spares_access _ _).bind fun _ =>
      (spares_writeInt32 _ _).bind fun _ => keep _
  | inspect place =>
    refine (spares_locate _ _).bind fun address => spares_get.bind fun p => ?_
    split
    · exact keep _
    · exact keep _
  | call index callArgs =>
    exact (spares_argument _ _ _ _).bind fun _ => (calls _ _).bind fun _ => give _
  | returnOnNull index v =>
    refine (spares_argument _ _ _ _).bind fun address => ?_
    split
    · exact spares_pure _
    · exact spares_pure _
  | fail fault => exact spares_throw _

omit calls in
theorem spares_finish (args : List NativeValue) (last : NativeValue) (result : ScriptResult) :
    Native.Spares (finish cx args last result) := by
  cases result with
  | const v => exact spares_pure _
  | argument index =>
    rw [finish]
    split
    · exact spares_pure _
    · exact spares_throw _
  | last => exact spares_pure _
  | addInt32 =>
    exact (spares_argument _ _ _ _).bind fun _ => (spares_argument _ _ _ _).bind fun _ => spares_pure _
  | addInt64 =>
    exact (spares_argument _ _ _ _).bind fun _ => (spares_argument _ _ _ _).bind fun _ => spares_pure _
  | addFloat =>
    exact (spares_argument _ _ _ _).bind fun _ => (spares_argument _ _ _ _).bind fun _ => spares_pure _
  | text width text => cases width <;> exact (spares_allocStatic _).bind fun _ => spares_pure _
  | function library symbol => exact spares_pure _

theorem spares_run (args : List NativeValue) (result : ScriptResult) (actions : List Action)
    (last : NativeValue) : Native.Spares (run cx args result last actions) := by
  induction actions generalizing last with
  | nil => exact spares_finish _ _ _
  | cons action actions ih =>
    refine (spares_perform calls _ _ _).bind fun outcome => ?_
    split
    · exact spares_pure _
    · exact ih _

omit calls in
/-- No script makes or frees a block that a call owns. -/
theorem spares_body (s : Script) : NativeBody.Spares s.body := fun _ calls _ =>
  (spares_note _).bind fun _ => spares_run calls _ _ _ _

end Script

namespace SystemFunction

theorem spares_loadLibraryW : NativeBody.Spares loadLibraryW := fun cx _ _ =>
  (spares_argument _ _ _ _).bind fun _ => (spares_access _ _).bind fun _ =>
    (spares_openLibrary cx _ _).bind fun _ => spares_pure _

theorem spares_freeLibrary : NativeBody.Spares freeLibrary := fun _ _ _ =>
  (spares_argument _ _ _ _).bind fun _ => spares_pure _

theorem spares_findSymbol : NativeBody.Spares findSymbol := fun _ _ _ =>
  (spares_argument _ _ _ _).bind fun _ => (spares_access _ _).bind fun _ =>
    (spares_argument _ _ _ _).bind fun _ => spares_pure _

theorem spares_dlopen : NativeBody.Spares dlopen := fun cx _ _ =>
  (spares_argument _ _ _ _).bind fun _ => (spares_access _ _).bind fun _ =>
    (spares_argument _ _ _ _).bind fun _ => (spares_openLibrary cx _ _).bind fun _ => spares_pure _

theorem spares_dlclose : NativeBody.Spares dlclose := fun _ _ _ =>
  (spares_argument _ _ _ _).bind fun _ => spares_pure _

theorem spares_uname : NativeBody.Spares uname := fun _ _ _ =>
  (spares_argument _ _ _ _).bind fun _ => (spares_write _ _).bind fun _ => spares_pure _

end SystemFunction

/-- Every function that is declared spares blocks. -/
def LibraryDecl.Spares (decl : LibraryDecl) : Prop := ∀ f ∈ decl.functions, NativeBody.Spares f.2

theorem Platform.spares_systemLibraries (p : Platform) : ∀ decl ∈ p.systemLibraries, decl.Spares := by
  have loader : ∀ f ∈ Platform.dynamicLoader, NativeBody.Spares f.2 := by
    simp only [dynamicLoader, List.forall_mem_cons]
    exact ⟨SystemFunction.spares_dlopen, SystemFunction.spares_dlclose,
      SystemFunction.spares_findSymbol, fun _ h => nomatch h⟩
  have libc : ∀ f ∈ [("uname", SystemFunction.uname)], NativeBody.Spares f.2 :=
    List.forall_mem_singleton.mpr SystemFunction.spares_uname
  unfold systemLibraries
  split
  · refine List.forall_mem_singleton.mpr ?_
    simp only [LibraryDecl.Spares, List.forall_mem_cons]
    exact ⟨SystemFunction.spares_loadLibraryW, SystemFunction.spares_freeLibrary,
      SystemFunction.spares_findSymbol, fun _ h => nomatch h⟩
  · dsimp only
    split
    · exact List.forall_mem_singleton.mpr libc
    · split
      · exact List.forall_mem_singleton.mpr (List.forall_mem_append.mpr ⟨libc, loader⟩)
      · exact List.forall_mem_cons.mpr ⟨loader, List.forall_mem_singleton.mpr libc⟩

namespace World

/-- No function of the world makes or keeps blocks that a call owns. -/
def Spares (w : World) : Prop := ∀ f ∈ w.functions, NativeBody.Spares f.body

variable {w : World}

theorem Spares.invoke (spares : w.Spares) (n : Nat) (address : UInt64) (args : List NativeValue) :
    Native.Spares (w.invoke n address args) := by
  induction n generalizing address args with
  | zero => exact spares_throw _
  | succ n ih =>
    rw [World.invoke]
    split
    · exact spares_throw _
    · next f found =>
      have mem : f ∈ w.functions := List.mem_of_find?_eq_some found
      have counted (address : UInt64) :
          Native.Spares (modify fun p => { p with calls := p.calls ++ [address] }) :=
        spares_of_heap fun _ => rfl
      exact (counted _).bind fun _ => spares f mem _ (fun _ _ => ih _ _) _

theorem Spares.declare (spares : w.Spares) {decl : LibraryDecl} (h : decl.Spares) :
    (w.declare decl).Spares := by
  have functions (functions : List (String × NativeBody)) (w : World) (spares : w.Spares)
      (h : ∀ f ∈ functions, NativeBody.Spares f.2) :
      (functions.foldl (fun w f => w.addFunction decl.name f.1 f.2) w).Spares := by
    induction functions generalizing w with
    | nil => exact spares
    | cons f functions ih =>
      rw [List.forall_mem_cons] at h
      refine ih _ ?_ h.2
      exact List.forall_mem_append.mpr ⟨spares, List.forall_mem_singleton.mpr h.1⟩
  refine functions _ _ ?_ h
  unfold addLibrary
  split <;> exact spares

/-- A world of scripts spares blocks. -/
theorem spares_build (platform : Platform) {declared : List LibraryDecl}
    (h : ∀ decl ∈ declared, decl.Spares) : (build platform declared).Spares := by
  have all (decls : List LibraryDecl) (w : World) (spares : w.Spares)
      (h : ∀ decl ∈ decls, decl.Spares) : (decls.foldl World.declare w).Spares := by
    induction decls generalizing w with
    | nil => exact spares
    | cons decl decls ih =>
      rw [List.forall_mem_cons] at h
      exact ih _ (spares.declare h.1) h.2
  exact all _ _ (fun _ h => nomatch h)
    (List.forall_mem_append.mpr ⟨platform.spares_systemLibraries, h⟩)

end World

end LateBind
