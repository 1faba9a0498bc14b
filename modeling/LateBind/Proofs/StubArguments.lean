import LateBind.Proofs.LateLinks
import LateBind.Proofs.OverlappingPins

/-! # What stubs hand over

A bound stub asks the system's loader at most, and then it calls its function, once. At that moment all
that the arguments lead to is in memory. -/

namespace LateBind

open Machine Exec

/-! ## Memory at the call -/

namespace MachineState

variable {module : Module} {s : MachineState} {heap : Heap} {plan : SlotPlan} {v passed : Value}

/-- When copies that are up to date are brought up to date, memory holds what it held. -/
theorem PinsHold.stores (hold : s.PinsHold module)
    (fresh : ∀ p ∈ s.pins, ∀ bytes, p.source.Images module s.objects bytes →
      heap.Stores p.block bytes)
    (others : ∀ other bytes, (∀ p ∈ s.pins, other ≠ p.block) → s.native.heap.Stores other bytes →
      heap.Stores other bytes)
    {start : UInt64} {bytes : Bytes} (stores : s.native.heap.Stores start bytes) :
    heap.Stores start bytes := by
  by_cases pinned : ∃ p ∈ s.pins, start = p.block
  · obtain ⟨p, hp, rfl⟩ := pinned
    obtain ⟨bytes', images, held⟩ := hold p hp
    obtain rfl := held.unique stores
    exact fresh p hp _ images
  · exact others start bytes (fun p hp same => pinned ⟨p, hp, same⟩) stores

theorem PinnedArray.withHeap (pinned : s.PinnedArray v passed) (heap : Heap) :
    (s.withHeap heap).PinnedArray v passed := by
  cases pinned with
  | null => exact .null
  | empty isArray none => exact .empty isArray none
  | items isArray some pinned => exact .items isArray some pinned

/-- What has been passed stays so when memory holds what it held. -/
theorem Crosses.withHeap (crosses : s.Crosses plan v passed) (next : heap.next = s.native.heap.next)
    (kept : s.native.heap.next ≤ 2 ^ 64 → ∀ start bytes, s.native.heap.Stores start bytes →
      heap.Stores start bytes) : (s.withHeap heap).Crosses plan v passed := by
  cases crosses with
  | direct => exact .direct v
  | boolean width n => exact .boolean width n
  | byRef pinned => exact .byRef pinned
  | blittableArray pinned => exact .blittableArray (pinned.withHeap heap)
  | noUnicode => exact .noUnicode
  | unicode text pinned => exact .unicode text pinned
  | noAnsi => exact .noAnsi
  | ansi text bytes pinned => exact .ansi text bytes pinned
  | strings has filled pinned =>
    refine .strings (has.mono fun _ _ found _ => found) ⟨filled.isTable, filled.length, fun fits => ?_⟩
      (pinned.withHeap heap)
    have fits' : s.native.heap.next ≤ 2 ^ 64 := next ▸ fits
    exact (filled.holds fits').imp fun _ _ holds => holds.mono (kept fits')
  | noDelegate => exact .noDelegate
  | delegate isDelegate => exact .delegate isDelegate

end MachineState

/-- As long as memory is left, the copies of arguments are sound. -/
theorem MachineState.PassesAll.pinsSound {module : Module} {old : Nat} {s s' : MachineState}
    {arguments : List (ParamSlot × Value)} {passed : List Value}
    (passes : s.PassesAll module old arguments s' passed) (unpinned : s.pins = [])
    (fits : s'.native.heap.next ≤ 2 ^ 64) : s'.PinsSound module :=
  passes.grows.sound fits ⟨by rw [unpinned]; exact List.forall_mem_nil _, by rw [unpinned]; exact .nil,
    by rw [unpinned]; exact .nil, Nat.le_trans passes.grows.next fits⟩

/-! ## What native code is given -/

/-- An argument, and what native code is given for it: the value itself, or an address where memory
holds what the argument leads to. A table of copies holds their addresses, and zero for null. -/
inductive MachineState.Receives (module : Module) (s : MachineState) (type : TypeRef) :
    SlotPlan → Value → NativeValue → Prop
  | direct {v : Value} {n : NativeValue} (converts : module.toNative type v = .ok n) :
      s.Receives module type .direct v n
  | boolean (width : BoolWidth) (i : Int32) :
      s.Receives module type (.boolean width) (.i32 i) (.ofBool (i ≠ 0))
  | byRef {a : Address} {block : UInt64} {bytes : Bytes}
      (images : a.source.Images module s.objects bytes) (stores : s.native.heap.Stores block bytes) :
      s.Receives module type .byRef (.address a) (.ptr block)
  | noArray : s.Receives module type .blittableArray .null (.ptr 0)
  | emptyArray {r : ObjRef} {element : TypeRef}
      (isArray : s.objects[r.index]? = some (.array element #[])) :
      s.Receives module type .blittableArray (.ref r) (.ptr 0)
  | array {r : ObjRef} {element : TypeRef} {items : Array Value} {pieces : List Bytes}
      {block : UInt64} (isArray : s.objects[r.index]? = some (.array element items))
      (encodes : List.Forall₂ (fun v piece => module.encode element v = .ok piece) items.toList pieces)
      (stores : s.native.heap.Stores block pieces.flatten) :
      s.Receives module type .blittableArray (.ref r) (.ptr block)
  | noUnicode : s.Receives module type .unicodeString .null (.ptr 0)
  | unicode {r : ObjRef} {units : Units} {block : UInt64}
      (text : s.objects[r.index]? = some (.str units))
      (stores : s.native.heap.Stores block
        (Bytes.ofNat 4 units.length ++ [0, 0, 0, 0] ++ Bytes.ofUnits units ++ [0, 0])) :
      s.Receives module type .unicodeString (.ref r) (.ptr (if block = 0 then 0 else block + 8))
  | noAnsi : s.Receives module type .ansiString .null (.ptr 0)
  | ansi {r : ObjRef} {units : Units} {block : UInt64}
      (text : s.objects[r.index]? = some (.str units))
      (stores : s.native.heap.Stores block (Latin1.lowBytes units ++ [0])) :
      s.Receives module type .ansiString (.ref r) (.ptr block)
  | noStrings {v : Value} (encoding : StringEncoding) (has : s.HasTexts v []) :
      s.Receives module type (.stringArray encoding) v (.ptr 0)
  | strings {v : Value} {encoding : StringEncoding} {texts : List (Option Units)}
      {addresses : List UInt64} {block : UInt64} (has : s.HasTexts v texts)
      (copies : List.Forall₂ s.native.heap.HoldsCopy (encoding.copies texts) addresses)
      (stores : s.native.heap.Stores block (addresses.map Bytes.ofWord).flatten) :
      s.Receives module type (.stringArray encoding) v (.ptr block)
  | noDelegate : s.Receives module type .delegate .null (.ptr 0)
  | delegate {r : ObjRef} {t : TypeRef} {target : UInt64}
      (isDelegate : s.objects[r.index]? = some (.delegate t target)) :
      s.Receives module type .delegate (.ref r) (.ptr target)

/-- When the copies are up to date, native code finds in them what it should. -/
theorem MachineState.Hands.receives {module : Module} {s : MachineState} {slot : ParamSlot} {v : Value}
    {n : NativeValue} (hands : s.Hands module (slot, v) n) (hold : s.PinsHold module)
    (fits : s.native.heap.next ≤ 2 ^ 64) : s.Receives module slot.type slot.plan v n := by
  obtain ⟨passed, crosses, native⟩ := hands
  unfold ParamSlot.nativeType at native
  generalize slot.plan = plan at crosses native
  cases crosses with
  | direct => exact .direct native
  | boolean width i =>
    cases width with
    | int32 => cases native; exact .boolean _ i
    | byte => cases native; exact .boolean _ i
  | byRef pinned =>
    cases native
    obtain ⟨bytes, images, stores⟩ := hold _ pinned
    exact .byRef images stores
  | blittableArray pinned =>
    cases pinned with
    | null => cases native; exact .noArray
    | empty isArray none =>
      cases native
      rw [Array.size_eq_zero_iff.mp none] at isArray
      exact .emptyArray isArray
    | items isArray some pinned =>
      cases native
      obtain ⟨bytes, images, stores⟩ := hold _ pinned
      cases images with
      | elements isArray' inside lays encodes => exact .array isArray' encodes stores
  | noUnicode => cases native; exact .noUnicode
  | unicode text pinned =>
    cases native
    obtain ⟨bytes, images, stores⟩ := hold _ pinned
    cases images.unique (.str text)
    exact .unicode text stores
  | noAnsi => cases native; exact .noAnsi
  | ansi text copy pinned =>
    cases native
    obtain ⟨bytes, images, stores⟩ := hold _ pinned
    cases images.unique (images_ofBytes copy (by simp))
    exact .ansi text stores
  | @strings _ _ t addresses has filled pinned =>
    cases pinned with
    | empty isArray none =>
      cases native
      have length := filled.length
      cases isArray.symm.trans filled.isTable
      have few : addresses.length = 0 := by simpa using none
      rw [few] at length
      rw [List.length_eq_zero_iff.mp length.symm] at has
      exact .noStrings t.encoding has
    | items isArray some pinned =>
      cases native
      obtain ⟨bytes, images, stores⟩ := hold _ pinned
      cases isArray.symm.trans filled.isTable
      cases images.unique (images_ofAddresses filled.isTable (by simpa using some))
      exact .strings has (filled.holds fits) stores
  | noDelegate => cases native; exact .noDelegate
  | delegate isDelegate => cases native; exact .delegate isDelegate

/-! ## Calls behind the call -/

/-- These functions have been called so far. -/
def MachineState.Logged (calls : List UInt64) (s : MachineState) : Prop := s.native.calls = calls

theorem MachineState.Logged.blind (calls : List UInt64) : Blind (Logged calls) :=
  fun _ _ _ same logged => same.trans logged

namespace Machine

variable {m : Machine} {kind : LoaderKind} {s s' s₁ s₂ : MachineState} {st : StubScaffold}
  {callee : OwnedMethod} {address : UInt64} {args passed : List Value} {helper : TypeName}
  {flags : Int32} {call : NativeCall} {natives : List NativeValue} {heap : Heap}

theorem calls_takeBackPins (m : Machine) (s : MachineState) :
    (m.takeBackPins s).2.native.calls = s.native.calls := by
  have stable := (MachineState.Logged.blind s.native.calls).stable
  exact (agree_takeBackPins (.refl m) stable).keeps.holds (P := MachineState.Logged s.native.calls) rfl

theorem calls_releasePins (s : MachineState) : (releasePins s).2.native.calls = s.native.calls := by
  have blind := MachineState.Logged.blind s.native.calls
  exact (keeps_releasePins blind.stable blind.lenient fun _ logged => logged).holds
    (P := MachineState.Logged s.native.calls) rfl

/-- Nothing is called between managed and native code but the function. -/
theorem calls_callPinned (refreshed : m.refreshPins s = (.ok (), s.withHeap heap)) :
    (m.callPinned call address natives s).2.native.calls =
      (call address natives (s.withHeap heap).native).2.calls := by
  have called : Exec.native (call address natives) (s.withHeap heap) =
      (.ok (call address natives (s.withHeap heap).native).1,
        { s with native := (call address natives (s.withHeap heap).native).2 }) := rfl
  unfold callPinned
  rw [Exec.bind_ok refreshed, Exec.bind_ok called]
  have same := m.calls_takeBackPins
    { s with native := (call address natives (s.withHeap heap).native).2 }
  rcases taken : m.takeBackPins { s with native := (call address natives (s.withHeap heap).native).2 }
    with ⟨r, s'⟩
  rw [taken] at same
  cases r with
  | error e => rw [Exec.bind_error taken, same]
  | ok _ => rw [Exec.bind_ok taken]; exact same

theorem adds_settle (outcome : Except NativeFault NativeValue) (s : MachineState) :
    s.Adds (settle outcome s).2 := by
  cases outcome with
  | ok v => exact .refl s
  | error fault =>
    cases fault with
    | raised message => exact .withObject s _
    | _ => exact .refl s

/-- Behind the native call a call through an address adds objects at most. -/
theorem adds_callIndirect {call : NativeCall} {site : CallSite} {natives : List NativeValue}
    (converts : (site.params.zip args).mapM (fun (t, v) => m.module.toNative t v) = .ok natives)
    {outcome : Except NativeFault NativeValue}
    (called : m.callPinned call address natives s = (.ok outcome, s')) :
    s'.Adds (m.callIndirect call address site args s).2 := by
  have adds := adds_settle outcome s'
  have whole : m.callIndirect call address site args s =
      (settle outcome >>= fun result => Exec.lift (m.module.ofNative site.returnType result)) s' := by
    rw [callIndirect, converts]
    exact Exec.bind_ok called _
  rw [whole]
  rcases settled : settle outcome s' with ⟨r, s''⟩
  rw [settled] at adds
  cases r with
  | error e => rwa [Exec.bind_error settled]
  | ok result =>
    rw [Exec.bind_ok settled]
    cases m.module.ofNative site.returnType result <;> exact adds

theorem calls_callIndirect {site : CallSite}
    (converts : (site.params.zip args).mapM (fun (t, v) => m.module.toNative t v) = .ok natives)
    (refreshed : m.refreshPins s = (.ok (), s.withHeap heap)) :
    (m.callIndirect call address site args s).2.native.calls =
      (call address natives (s.withHeap heap).native).2.calls := by
  rw [← calls_callPinned refreshed]
  rcases called : m.callPinned call address natives s with ⟨r, s'⟩
  cases r with
  | error e =>
    have whole : m.callIndirect call address site args s = (.error e, s') := by
      rw [callIndirect, converts]
      exact Exec.bind_error called _
    rw [whole]
  | ok outcome =>
    obtain ⟨more, eq⟩ := adds_callIndirect converts called
    rw [eq]

/-- Without fuel the function is not reached, and that is what the stub tells. -/
theorem fst_callIndirect_zero {site : CallSite} (sound : s.PinsSound m.module)
    (converts : (site.params.zip args).mapM (fun (t, v) => m.module.toNative t v) = .ok natives) :
    (m.callIndirect (m.world.invoke 0) address site args s).1 = .error (.fatal .outOfFuel) := by
  obtain ⟨heap, -, next, -, takes⟩ := callPinned_takes_back sound (m.world.invoke 0) address natives
  obtain ⟨objects, called, -⟩ := takes (fun _ bytes stores => ⟨bytes, stores, rfl⟩) (next ▸ sound.fits)
  have starves : m.callIndirect (m.world.invoke 0) address site args s = (.error (.fatal .outOfFuel),
      { s with native := (m.world.invoke 0 address natives (s.withHeap heap).native).2, objects }) := by
    rw [callIndirect, converts]
    exact (Exec.bind_ok called _).trans rfl
  rw [starves]

theorem Concludes.calls {slot : ReturnSlot} {tables : List ObjRef}
    {r r' : Except Trap (Option Value)} (concludes : m.Concludes slot tables r s r' s')
    (taken : ∀ v, r = .ok v → ∃ n, m.module.ofNative slot.nativeType n = .ok v) :
    s'.native.calls = s.native.calls := by
  have reads {v : Option Value} (given : r = .ok v) :
      (m.unmarshal slot v s).2.native.calls = s.native.calls := by
    obtain ⟨n, taken⟩ := taken v given
    obtain ⟨more, eq⟩ := (m.adds_unmarshal taken s).1
    rw [eq]
  cases concludes with
  | stopped => rfl
  | threw back => rw [back.eq]
  | unread fails =>
    have same := reads rfl
    rwa [fails] at same
  | returned read back =>
    have same := reads rfl
    rw [read] at same
    rw [back.eq]
    exact same

/-! ## Calls of stubs -/

theorem AddressOf.unique {address' : UInt64} (right : m.AddressOf st address)
    (right' : m.AddressOf st address') : address = address' := by
  obtain ⟨handle, found, rfl⟩ := right
  obtain ⟨handle', found', rfl⟩ := right'
  cases found.symm.trans found'
  rfl

/-- All arguments have a form for native code. -/
theorem RunsStub.converts {made passing : MachineState} {passed : List Value} {ts : List AddressTable}
    (stub : m.RunsStub helper flags st callee)
    (takes : List.Forall₂ (ParamSlot.Takes m.module s₁) st.stub.params args)
    (marshals : s₁.Marshals m.module st.stub.params args ts made passing passed) :
    ∃ natives,
      (st.callSite.params.zip passed).mapM (fun (t, v) => m.module.toNative t v) = .ok natives ∧
      List.Forall₂ (passing.Hands m.module) (st.stub.params.zip args) natives := by
  have site : st.callSite.params = (st.stub.params.zip args).map fun x => x.1.nativeType := by
    have slots := List.map_fst_zip (Nat.le_of_eq takes.length_eq)
    rw [stub.emittable.fits.callSite]
    change st.stub.params.map ParamSlot.nativeType = _
    rw [← slots, List.map_map, slots]
    rfl
  have admits : ∀ x ∈ st.stub.params.zip args, x.1.plan.isStringArray = false →
      x.1.Admits m.module s₁ x.2 := by
    intro x hx plain
    cases (List.forall₂_iff_zip.mp takes).2 hx with
    | value admits => exact admits
    | strings plan =>
      rw [plan] at plain
      cases plain
  rw [site]
  exact MachineState.exists_hands marshals.passesAll.crosses admits

/-- A call of a stub comes to the native call: the arguments have been passed, and how the native call
goes decides how the stub ends. -/
structure Passing (m : Machine) (st : StubScaffold) (args : List Value) (address : UInt64)
    (s passing : MachineState) (natives : List NativeValue) : Prop where
  objects : ∀ (i : Nat) (o : Object), s.objects[i]? = some o → passing.objects[i]? = some o
  hands : List.Forall₂ (passing.Hands m.module) (st.stub.params.zip args) natives
  awaits : ∃ callee passed tables, m.module.ownedAt? st.stub.handle = some callee ∧
    (st.callSite.params.zip passed).mapM (fun (t, v) => m.module.toNative t v) = .ok natives ∧
    m.CallAwaits callee args s
      (fun n => m.callIndirect (m.world.invoke n) address st.callSite passed passing)
      (m.Concludes st.stub.returns tables)

/-- A stub that has been readied passes its arguments, and it ends as the native call decides. -/
theorem RunsStub.passes (stub : m.RunsStub helper flags st callee)
    (at_ : m.module.ownedAt? st.stub.handle = some callee) (readies : m.Readies st s address s₁)
    (takes : List.Forall₂ (ParamSlot.Takes m.module s₁) st.stub.params args)
    (kept : ∀ (i : Nat) (o : Object), s.objects[i]? = some o → s₁.objects[i]? = some o)
    {fuel : Nat} (runs : ¬Starved (m.invoke fuel callee args s)) :
    ∃ ts made passing passed natives n r s₃,
      s₁.Marshals m.module st.stub.params args ts made passing passed ∧
      m.Passing st args address s passing natives ∧
      (st.callSite.params.zip passed).mapM (fun (t, v) => m.module.toNative t v) = .ok natives ∧
      m.invoke fuel callee args s = (r, s₃) ∧
      m.Concludes st.stub.returns (ts.map AddressTable.ref)
        (m.callIndirect (m.world.invoke n) address st.callSite passed passing).1
        (m.callIndirect (m.world.invoke n) address st.callSite passed passing).2 r s₃ := by
  obtain ⟨ts, made, passing, passed, marshals, awaits⟩ := stub.awaits readies takes
  obtain ⟨n, r, s₃, invoked, concludes⟩ := (awaits.cases fuel).resolve_left runs
  obtain ⟨natives, converts, hands⟩ := stub.converts takes marshals
  exact ⟨ts, made, passing, passed, natives, n, r, s₃, marshals,
    ⟨fun i o given => marshals.passesAll.grows.objects i o (kept i o given), hands, callee, passed, _,
      at_, converts, awaits⟩, converts, invoked, concludes⟩

/-- A stub has called a function, once, and nothing else but the system's loader. As long as memory is
left, all that the arguments lead to is there when the function is called. -/
structure CallsOnce (m : Machine) (kind : LoaderKind) (st : StubScaffold) (args : List Value)
    (f : NativeFunction) (s s' passing : MachineState) (natives : List NativeValue) : Prop
    extends m.Passing st args f.address s passing natives where
  asks : ∃ asks, passing.native.calls = s.native.calls ++ asks ∧ ∀ a ∈ asks, m.world.Asks kind a
  called : passing.native.heap.next ≤ 2 ^ 64 → ∃ heap n,
    m.refreshPins passing = (.ok (), passing.withHeap heap) ∧
    List.Forall₂ (fun x => (passing.withHeap heap).Receives m.module x.1.type x.1.plan x.2)
      (st.stub.params.zip args) natives ∧
    s'.native.calls = (f.body ⟨m.world.catalog, fun callee args => m.world.invoke n callee args⟩ natives
      { passing.native with heap, calls := passing.native.calls ++ [f.address] }).2.calls

theorem RunsStub.callsOnce (stub : m.RunsStub helper flags st callee)
    (at_ : m.module.ownedAt? st.stub.handle = some callee) (readies : m.Readies st s address s₁)
    (takes : List.Forall₂ (ParamSlot.Takes m.module s₁) st.stub.params args) (unpinned : s₁.pins = [])
    (kept : ∀ (i : Nat) (o : Object), s.objects[i]? = some o → s₁.objects[i]? = some o)
    (asked : ∃ asks, s₁.native.calls = s.native.calls ++ asks ∧ ∀ a ∈ asks, m.world.Asks kind a)
    {f : NativeFunction} (found : m.world.function? address = some f) {fuel : Nat}
    {result : Except MachineError (Option Value)} (called : m.call fuel callee args s = (result, s₂))
    (ended : result ≠ .error .outOfFuel) :
    ∃ passing natives, m.CallsOnce kind st args f s s₂ passing natives := by
  obtain ⟨ts, made, passing, passed, natives, n, r, s₃, marshals, reached, converts, invoked,
    concludes⟩ := stub.passes at_ readies takes kept (not_starved_of_call called ended)
  have passes := marshals.passesAll
  have calls : passing.native.calls = s₁.native.calls := by rw [passes.grows.native]
  obtain rfl : f.address = address := by simpa using List.find?_some found
  refine ⟨passing, natives, reached, calls ▸ asked, fun fits => ?_⟩
  have sound := passes.pinsSound unpinned fits
  have hold : passing.PinsHold m.module :=
    passes.grows.pinsHold fits (by rw [MachineState.PinsHold, unpinned]; exact List.forall_mem_nil _)
  obtain ⟨heap, refreshed, next, fresh, others⟩ := refreshPins_apply sound
  have hold' : (passing.withHeap heap).PinsHold m.module := fun p hp => by
    obtain ⟨bytes, images, -⟩ := hold p hp
    exact ⟨bytes, images, fresh p hp bytes images⟩
  have receives (x : ParamSlot × Value) (n : NativeValue) (hands : passing.Hands m.module x n) :
      (passing.withHeap heap).Receives m.module x.1.type x.1.plan x.2 n := by
    obtain ⟨passed, crosses, native⟩ := hands
    have crosses' := crosses.withHeap next fun _ _ _ => hold.stores fresh others
    exact MachineState.Hands.receives ⟨passed, crosses', native⟩ hold' (next ▸ fits)
  -- the stub has not starved, so native code had fuel
  obtain ⟨n, rfl⟩ : ∃ k, n = k + 1 := by
    refine Nat.exists_eq_succ_of_ne_zero fun none => ended ?_
    subst none
    rw [fst_callIndirect_zero sound converts] at concludes
    cases concludes
    exact (congrArg Prod.fst called).symm.trans (call_of_starved (congrArg Prod.fst invoked))
  have final : s₂.native.calls = s₃.native.calls := by
    have returned : (m.call fuel callee args s).2 = s₂ := by rw [called]
    rw [← returned, snd_call, calls_releasePins, invoked]
  refine ⟨heap, n, refreshed, reached.hands.imp receives, ?_⟩
  rw [final, concludes.calls fun _ => stub.taken, calls_callIndirect converts refreshed,
    invoke_apply found]

end Machine

/-- At any time in a history of calls, a stub whose symbol is there gets its address, and only the
system's loader is asked for that. -/
theorem Launched.readies {original : Module} {c : Config} {p : Platform} {declared : List LibraryDecl}
    {types : List TypeScaffold} {m : Machine} {s s₁ s₂ : MachineState}
    (launched : Launched original c p declared types m s)
    (calls : m.CallsStubs types s s₁) {objects : Array Object} {st : StubScaffold} {args : List Value}
    {result : Except MachineError (Option Value)}
    (one : m.CallsStub types st args { s₁ with objects } result s₂) {address : UInt64}
    (right : m.AddressOf st address) (present : address ≠ 0) :
    ∃ callee fuel s₃, m.call fuel callee args { s₁ with objects } = (result, s₂) ∧
      m.module.ownedAt? st.stub.handle = some callee ∧
      m.RunsStub c.helperType c.loadFlags st callee ∧ m.Readies st { s₁ with objects } address s₃ ∧
      List.Forall₂ (ParamSlot.Takes m.module s₃) st.stub.params args ∧ s₃.pins = [] ∧
      (∀ (i : Nat) (o : Object), objects[i]? = some o → s₃.objects[i]? = some o) ∧
      ∃ asks, s₃.native.calls = s₁.native.calls ++ asks ∧
        ∀ a ∈ asks, m.world.Asks p.loaderKind a := by
  obtain ⟨planned, hp, hs⟩ := List.mem_flatMap.mp one.planned
  have some : types ≠ [] := List.ne_nil_of_mem hp
  obtain ⟨hosts, stands⟩ := launched.hosts some
  have stands₁ := hosts.stands_callsStubs stands calls
  obtain ⟨callee, fuel, at_, called⟩ := one.called
  obtain ⟨-, callee', at', bound⟩ := hosts.stub planned hp st hs
  obtain rfl : callee' = callee := Option.some.inj (at'.symm.trans at_)
  obtain ⟨s₃, begins, -, -, ready, kept, asked⟩ :=
    hosts.begins (stands₁.objects objects) hp hs at_ args
  cases begins with
  | fails missing => exact absurd right (missing.not_addressOf present)
  | ready right' _ readies =>
    obtain rfl := Machine.AddressOf.unique right right'
    exact ⟨callee', fuel, s₃, called, at_, bound.runs, readies,
      one.takes.imp fun _ _ takes => takes.mono kept, ready.pins, kept, asked⟩

/-- At any time in a history of calls, the call of a stub whose symbol is there calls the function of
that name in that library once, and nothing else but the system's loader. At the call every argument
has the form that its slot asks for, and what the arguments lead to is in memory: numbers and booleans
are passed as they are, strings, arrays and boxes as the addresses of their copies, and arrays of
strings as the addresses of tables of the addresses of copies. -/
theorem Launched.calls_once {original : Module} {c : Config} {p : Platform}
    {declared : List LibraryDecl} {types : List TypeScaffold} {m : Machine} {s s₁ s₂ : MachineState}
    (launched : Launched original c p declared types m s)
    (calls : m.CallsStubs types s s₁) {objects : Array Object} {st : StubScaffold} {args : List Value}
    {result : Except MachineError (Option Value)}
    (one : m.CallsStub types st args { s₁ with objects } result s₂) {address : UInt64}
    (right : m.AddressOf st address) (present : address ≠ 0) :
    ∃ f passing natives, m.world.function? address = some f ∧ f.library = st.library.loadName ∧
      f.symbol = st.stub.symbol ∧
      m.CallsOnce p.loaderKind st args f { s₁ with objects } s₂ passing natives := by
  obtain ⟨callee, fuel, s₃, called, callee_at, stub, readies, takes, unpinned, kept, asked⟩ :=
    launched.readies calls one right present
  have consistent : m.world.Consistent := launched.built ▸ World.consistent_build p declared
  obtain ⟨handle, open_, at_⟩ := right
  obtain ⟨f, found, library, symbol⟩ :=
    consistent.exists_function launched.small open_ at_ present
  obtain ⟨passing, natives, once⟩ :=
    stub.callsOnce callee_at readies takes unpinned kept asked found called one.ended
  exact ⟨f, passing, natives, found, library, symbol, once⟩

namespace Module

/-- One stub, which passes the address of a number. -/
def setter : Module :=
  let set : MethodDef :=
    { (MethodDef.static "Set" .void).importing "m" with params := [ParamDef.plain "a" (.byRef .i32)] }
  (start "setter" Uuid.zero).withType ((TypeDef.ofKind "A.T" .classType).withMethod set)

/-- Writes seven where its argument points. -/
def setNumber : NativeBody := fun _ args => do
  Native.writeInt32 (← Native.pointerArg args 0) 7
  return .i32 0

def settingLibrary : List LibraryDecl := [⟨"m", [("Set", setNumber)]⟩]

/-- The stub is called with the address of the second of two numbers, which is set. -/
theorem exists_call_setter : ∃ types m s st s',
    Launched setter Config.default .linux settingLibrary types m s ∧
      m.CallsStub types st [.address (.element ⟨0⟩ 1)]
        { s with objects := #[.array .i32 #[.i32 1, .i32 2]] } (.ok none) s' ∧
      s'.objects[0]? = some (.array .i32 #[.i32 1, .i32 7]) ∧ m.AddressOf st 0x7F0000000040 ∧
      ∃ slot, st.stub.params = [slot] := by
  obtain ⟨types, out, s, ok, loaded, launched, -, outlines⟩ :=
    exists_launched_of_outline setter settingLibrary [(("m", "Set"), [(.byRef, .byRef .i32)])]
      (by decide +kernel) (by decide +kernel) (List.cons_ne_nil _ _) (by decide) (by decide) (by decide)
      (by decide) ⟨by decide, by decide⟩
  obtain ⟨st, stubs, outline⟩ := List.map_eq_singleton_iff.mp outlines
  have mem : st ∈ types.flatMap TypeScaffold.stubs := stubs ▸ List.mem_singleton_self st
  obtain ⟨asks, slots⟩ := Prod.mk.inj outline
  obtain ⟨name, symbol⟩ := Prod.mk.inj asks
  obtain ⟨slot, params, kind⟩ := List.map_eq_singleton_iff.mp slots
  obtain ⟨plan, -⟩ := Prod.mk.inj kind
  have place : st.stub.handle = ⟨0, 0⟩ := by
    obtain ⟨found, table, planned⟩ := launched.plan
    have handles : ((setter.importTable Config.default.exclusions >>=
        setter.planTypes Config.default).map fun types =>
          (types.flatMap TypeScaffold.stubs).map (·.stub.handle)) = .ok [⟨0, 0⟩] := by decide +kernel
    rw [table, ok_bind, planned] at handles
    have all : (types.flatMap TypeScaffold.stubs).map (·.stub.handle) = [⟨0, 0⟩] :=
      Except.ok.inj handles
    rw [stubs] at all
    exact List.head_eq_of_cons_eq all
  have isHandle : (World.build .linux settingLibrary).catalog.handle? "m" = some 4128 := by decide
  have isAddress : (World.build .linux settingLibrary).catalog.symbol 4128 "Set" = 0x7F0000000040 := by
    decide
  have ran : ((setter.bindLate Config.default Uuid.zero).map fun out =>
      (Machine.load ⟨out.module, .build .linux settingLibrary⟩ 7).map fun s =>
        (out.module.ownedAt? ⟨0, 0⟩).map fun callee =>
          let after := Machine.call ⟨out.module, .build .linux settingLibrary⟩ 40 callee
            [.address (.element ⟨0⟩ 1)] { s with objects := #[.array .i32 #[.i32 1, .i32 2]] }
          (after.1, after.2.objects[0]?)) =
      .ok (.ok (some (.ok none, some (.array .i32 #[.i32 1, .i32 7])))) := by decide +kernel
  obtain ⟨out', ok', ran⟩ := exists_of_map_ok ran
  cases ok.symm.trans ok'
  obtain ⟨s', loaded', ran⟩ := exists_of_map_ok ran
  cases loaded.symm.trans loaded'
  obtain ⟨callee, at_, ran⟩ := Option.map_eq_some_iff.mp ran
  obtain ⟨result, array⟩ := Prod.mk.inj ran
  have takes : List.Forall₂ (ParamSlot.Takes out.module
      { s with objects := #[.array .i32 #[.i32 1, .i32 2]] }) st.stub.params
        [.address (.element ⟨0⟩ 1)] := by
    have admits : slot.Admits out.module { s with objects := #[.array .i32 #[.i32 1, .i32 2]] }
        (.address (.element ⟨0⟩ 1)) := by
      rw [ParamSlot.Admits, plan]
      exact ⟨_, _, rfl, (images_numbers out.module rfl).2⟩
    rw [params]
    exact .cons (.value admits) .nil
  have one : Machine.CallsStub ⟨out.module, .build .linux settingLibrary⟩ types st
      [.address (.element ⟨0⟩ 1)] { s with objects := #[.array .i32 #[.i32 1, .i32 2]] } (.ok none) _ :=
    ⟨mem, takes, ⟨callee, 40, place ▸ at_, Prod.ext result rfl⟩, by simp⟩
  have right : Machine.AddressOf ⟨out.module, .build .linux settingLibrary⟩ st 0x7F0000000040 := by
    refine ⟨4128, ?_, ?_⟩
    · rw [name]
      exact isHandle
    · rw [symbol]
      exact isAddress
  exact ⟨types, _, s, st, _, launched, one, array, right, slot, params⟩

/-- The function that sets a number is called once, with the address of a copy of the number. -/
theorem calls_once_setter : ∃ types m s st s' f passing natives,
    Launched setter Config.default .linux settingLibrary types m s ∧
      m.CallsStub types st [.address (.element ⟨0⟩ 1)]
        { s with objects := #[.array .i32 #[.i32 1, .i32 2]] } (.ok none) s' ∧
      m.world.function? 0x7F0000000040 = some f ∧
      m.CallsOnce Platform.linux.loaderKind st [.address (.element ⟨0⟩ 1)] f
        { s with objects := #[.array .i32 #[.i32 1, .i32 2]] } s' passing natives := by
  obtain ⟨types, m, s, st, s', launched, one, -, right, -⟩ := exists_call_setter
  obtain ⟨f, passing, natives, found, -, -, once⟩ :=
    launched.calls_once .none one right (by decide)
  exact ⟨types, m, s, st, s', f, passing, natives, launched, one, found, once⟩

end Module

end LateBind
