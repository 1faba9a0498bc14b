import LateBind.Proofs.StubArguments

/-! # What native code writes

Behind a call of a stub, managed code finds what native code left at the addresses that it was given,
as long as no two arguments are different views of one object. -/

namespace LateBind

open Machine Exec

/-! ## Reading back -/

/-- The object that a copy is made of. -/
def PinSource.object : PinSource → ObjRef
  | .elements r _ => r
  | .boxed r => r
  | .str r => r

/-- What is found behind a native call in the object of a copy: items and boxed values are what memory
holds, items before the copy are as they were, and so are strings. -/
def PinSource.ReadBack (module : Module) (h : Heap) (objects objects' : Array Object) (block : UInt64) :
    PinSource → Prop
  | .elements r start => ∀ element items, objects[r.index]? = some (.array element items) →
      ∃ items', objects'[r.index]? = some (.array element items') ∧ items'.size = items.size ∧
        (∀ i, i < start → items'[i]? = items[i]?) ∧
        ∀ i, start ≤ i → i < items.size → ∃ width data v, module.size element = .ok width ∧
          h.read? block (width * (items.size - start)) = some data ∧
          module.decode element (data.drop ((i - start) * width)) = .ok v ∧ items'[i]? = some v
  | .boxed r => ∀ t v, objects[r.index]? = some (.boxed t v) → ∃ width data v',
      module.size t = .ok width ∧ h.read? block width = some data ∧ module.decode t data = .ok v' ∧
        objects'[r.index]? = some (.boxed t v')
  | .str r => ∀ units, objects[r.index]? = some (.str units) → objects'[r.index]? = some (.str units)

/-- What a native call did not write is as it was: an item, or a boxed value, that some bytes are read
as, and whose bytes in the copy are the same before the call and behind it. Numbers of single precision
are left out, as not all of them are read as they were written. -/
def PinSource.KeepsUnwritten (module : Module) (h h' : Heap) (objects objects' : Array Object)
    (block : UInt64) : PinSource → Prop
  | .elements r start => ∀ element items width before after,
      objects[r.index]? = some (.array element items) →
      module.size element = .ok width → module.represent element ≠ .primitive .f32 →
      h.read? block (width * (items.size - start)) = some before →
      h'.read? block (width * (items.size - start)) = some after →
      ∃ items', objects'[r.index]? = some (.array element items') ∧
        ∀ i v, start ≤ i → items[i]? = some v → (∃ bytes, module.decode element bytes = .ok v) →
          after.chunk width (i - start) = before.chunk width (i - start) → items'[i]? = some v
  | .boxed r => ∀ t v width, objects[r.index]? = some (.boxed t v) → module.size t = .ok width →
      module.represent t ≠ .primitive .f32 → (∃ bytes, module.decode t bytes = .ok v) →
      h'.read? block width = h.read? block width → objects'[r.index]? = some (.boxed t v)
  | .str _ => True

section ReadBack

variable {module : Module} {h : Heap} {pins : List Pin} {objects objects' : Array Object}
  {block : UInt64}
  {source : PinSource}

/-- A copy is read back when no other one is made of the same object. -/
theorem TakenBack.readBack (back : TakenBack module h pins objects objects')
    (hp : ⟨block, source⟩ ∈ pins) (sources : pins.Pairwise fun p q => p.source ≠ q.source)
    (only : ∀ q ∈ pins, q.source.object = source.object → q.source = source) :
    source.ReadBack module h objects objects' block := by
  obtain ⟨before, after, split⟩ := List.append_of_mem hp
  have alone : ∀ q ∈ after, q.source.object ≠ source.object := by
    intro q hq same
    rw [split] at sources
    have apart := List.rel_of_pairwise_cons (List.pairwise_append.mp sources).2.1 hq
    exact apart (only q (split ▸ List.mem_append_right _ (List.mem_cons_of_mem _ hq)) same).symm
  cases source with
  | elements r start =>
    intro element items isArray
    obtain ⟨items', isArray', array⟩ := back.array r element items isArray
    refine ⟨items', isArray', array.size, fun i inside => array.kept i ?_, fun i le inside => ?_⟩
    · rintro p hp ⟨start', eq, covers⟩
      have same := only p hp (by rw [eq]; rfl)
      rw [eq] at same
      cases same
      omega
    · refine array.read before _ after start i split rfl le inside ?_
      rintro q hq ⟨start', eq, -⟩
      exact alone q hq (by rw [eq]; rfl)
  | boxed r =>
    intro t v isBox
    obtain ⟨v', isBox', box⟩ := back.box r t v isBox
    obtain ⟨width, data, size, read, decodes⟩ :=
      box.read before _ after split rfl fun q hq same => alone q hq (by rw [same])
    exact ⟨width, data, v', size, read, decodes, isBox'⟩
  | str r =>
    intro units text
    exact back.other _ _ text (fun _ _ same => by cases same) fun _ _ same => by cases same

/-- What was read back is found later too, and from before. -/
theorem PinSource.ReadBack.mono {first last : Array Object}
    (back : source.ReadBack module h objects objects' block)
    (before : ∀ o, first[source.object.index]? = some o → objects[source.object.index]? = some o)
    (after : ∀ o, objects'[source.object.index]? = some o → last[source.object.index]? = some o) :
    source.ReadBack module h first last block := by
  cases source with
  | elements r start =>
    intro element items isArray
    obtain ⟨items', isArray', rest⟩ := back element items (before _ isArray)
    exact ⟨items', after _ isArray', rest⟩
  | boxed r =>
    intro t v isBox
    obtain ⟨width, data, v', size, read, decodes, isBox'⟩ := back t v (before _ isBox)
    exact ⟨width, data, v', size, read, decodes, after _ isBox'⟩
  | str r => exact fun units text => after _ (back units (before _ text))

/-- Bytes of a copy that are as they were are read back as what was there. -/
theorem PinSource.ReadBack.keepsUnwritten {h' : Heap} {first : Array Object} {was : Bytes}
    (back : source.ReadBack module h' objects objects' block)
    (before : ∀ o, objects[source.object.index]? = some o → first[source.object.index]? = some o)
    (images : source.Images module first was) (stores : h.Stores block was) (fits : h.next ≤ 2 ^ 64) :
    source.KeepsUnwritten module h h' objects objects' block := by
  have copied := stores.read?_start fits
  cases source with
  | str r => trivial
  | elements r start =>
    intro element items width old new isArray size exact oldRead newRead
    obtain ⟨items', isArray', -, -, read⟩ := back element items isArray
    obtain ⟨width', size', total⟩ := images.length_elements (before _ isArray)
    cases size.symm.trans size'
    rw [total, oldRead] at copied
    cases copied
    refine ⟨items', isArray', fun i v le found ⟨bytes, valid⟩ unwritten => ?_⟩
    obtain ⟨width', data, v', size', read, decodes, at_⟩ :=
      read i le (Array.getElem?_eq_some_iff.mp found).1
    cases size.symm.trans size'
    cases newRead.symm.trans read
    have encodes := images.encode_chunk (before _ isArray) size le found
    have same := Module.decode_of_encode_of_decode valid size exact encodes
    rw [← unwritten, Bytes.chunk, Module.decode_take size (Nat.le_refl width), decodes] at same
    cases same
    exact at_
  | boxed r =>
    rintro t v width isBox size exact ⟨bytes, valid⟩ unwritten
    obtain ⟨width', data, v', size', read, decodes, isBox'⟩ := back t v isBox
    cases size.symm.trans size'
    cases images with
    | boxed isBox₀ lays encodes =>
      cases (before _ isBox).symm.trans isBox₀
      have length : width = was.length := by
        have length := Module.length_of_encode encodes
        rw [size] at length
        exact Except.ok.inj length
      rw [unwritten, length, copied] at read
      cases read
      cases decodes.symm.trans (Module.decode_of_encode_of_decode valid size exact encodes)
      exact isBox'

end ReadBack

/-! ## Objects behind the call -/

/-- Only tables change when copies of strings are given back. -/
theorem MachineState.GivesBack.object {s s' : MachineState} {rs : List ObjRef}
    {fault : Option MachineError} (back : s.GivesBack rs fault s') {i : Nat}
    (other : ∀ r ∈ rs, r.index ≠ i) : s'.objects[i]? = s.objects[i]? := by
  induction back with
  | nil => rfl
  | cons _ _ _ _ ih =>
    obtain ⟨apart, other⟩ := List.forall_mem_cons.mp other
    rw [ih other, withTable, Array.getElem?_setIfInBounds_ne apart]
  | stops =>
    have apart := other _ List.mem_cons_self
    rw [withTable, Array.getElem?_setIfInBounds_ne apart]

theorem Exec.objects_free (address : UInt64) (s : MachineState) :
    (Exec.free address s).2.objects = s.objects := by
  cases freed : s.native.heap.free address with
  | ok heap => simp [Exec.free, freed, Exec.setHeap]
  | error fault => cases fault <;> simp [Exec.free, freed, Exec.fatal]

namespace Machine

variable {m : Machine} {s s' s₁ s₂ : MachineState} {st : StubScaffold} {callee : OwnedMethod}
  {address : UInt64} {args passed : List Value}

theorem objects_releasePins (s : MachineState) : (releasePins s).2.objects = s.objects := by
  have all (blocks : List UInt64) (s : MachineState) :
      (blocks.forM Exec.free s).2.objects = s.objects := by
    induction blocks generalizing s with
    | nil => rfl
    | cons block blocks ih =>
      have first := Exec.objects_free block s
      change ((Exec.free block >>= fun _ => blocks.forM Exec.free) s).2.objects = s.objects
      rcases freed : Exec.free block s with ⟨r, s'⟩
      rw [freed] at first
      cases r with
      | error e => rw [Exec.bind_error freed, first]
      | ok _ => rw [Exec.bind_ok freed, ih, first]
  rw [releasePins_apply, all]

theorem Concludes.object {slot : ReturnSlot} {tables : List ObjRef}
    {r r' : Except Trap (Option Value)} (concludes : m.Concludes slot tables r s r' s')
    (taken : ∀ v, r = .ok v → ∃ n, m.module.ofNative slot.nativeType n = .ok v) {i : Nat} {o : Object}
    (found : s.objects[i]? = some o) (other : ∀ t ∈ tables, t.index ≠ i) :
    s'.objects[i]? = some o := by
  have reads {v : Option Value} (given : r = .ok v) : s.Adds (m.unmarshal slot v s).2 := by
    obtain ⟨n, taken⟩ := taken v given
    exact (m.adds_unmarshal taken s).1
  cases concludes with
  | stopped => exact found
  | threw back => rwa [back.object other]
  | unread fails =>
    have adds := reads rfl
    rw [fails] at adds
    exact adds.object found
  | returned read back =>
    have adds := reads rfl
    rw [read] at adds
    rw [back.object other]
    exact adds.object found

end Machine

/-! ## Calls of stubs -/

/-- No two arguments are different views of one object. -/
def OneView (params : List ParamSlot) (args : List Value) : Prop :=
  ∀ x ∈ params.zip args, ∀ y ∈ params.zip args, ∀ source source',
    x.1.plan.source? x.2 = some source → y.1.plan.source? y.2 = some source' →
      source.object = source'.object → source = source'

/-- What is pinned for the arguments of a call is pinned through one view each. -/
theorem MachineState.PassesAll.only {module : Module} {s s' : MachineState} {params : List ParamSlot}
    {args passed : List Value}
    (passes : s.PassesAll module s.objects.size (params.zip args) s' passed) (unpinned : s.pins = [])
    (oneView : OneView params args) {source : PinSource} {block : UInt64}
    (hp : ⟨block, source⟩ ∈ s'.pins) (old : source.object.index < s.objects.size) :
    ∀ q ∈ s'.pins, q.source.object = source.object → q.source = source := by
  have made {q : Pin} (hq : q ∈ s'.pins) (known : q.source.object.index < s.objects.size) :
      ∃ x ∈ params.zip args, x.1.plan.source? x.2 = some q.source := by
    rcases passes.pins q hq with before | ⟨x, hx, given | ⟨r, new, eq⟩⟩
    · rw [unpinned] at before
      cases before
    · exact ⟨x, hx, given⟩
    · rw [eq] at known
      exact absurd new (Nat.not_le.mpr known)
  intro q hq same
  obtain ⟨x, hx, given⟩ := made hq (same ▸ old)
  obtain ⟨y, hy, given'⟩ := made hp old
  exact oneView x hx y hy _ _ given given' same

namespace Machine

variable {m : Machine} {s s' s₁ s₂ : MachineState} {st : StubScaffold} {callee : OwnedMethod}
  {address : UInt64} {args : List Value} {helper : TypeName} {flags : Int32}

/-- How a stub calls what is at an address: once, with the arguments in memory. When the function frees
nothing, what it left behind its pointers is read back, whether it returns or raises, and what it did
not write is as it was. -/
def WritesBack (m : Machine) (st : StubScaffold) (args : List Value) (address : UInt64)
    (s s' : MachineState) : Prop :=
  ∃ n passing natives, m.Passing st args address s passing natives ∧
    (passing.native.heap.next ≤ 2 ^ 64 → ∃ heap : Heap,
      m.refreshPins passing = (.ok (), passing.withHeap heap) ∧
      (∀ p ∈ passing.pins, ∀ bytes, p.source.Images m.module passing.objects bytes →
        heap.Stores p.block bytes) ∧
      let ended := m.world.invoke n address natives { passing.native with heap }
      heap.Keeps ended.2.heap → ended.2.heap.next ≤ 2 ^ 64 →
        ∀ p ∈ passing.pins, p.source.object.index < s.objects.size →
          p.source.ReadBack m.module ended.2.heap s.objects s'.objects p.block ∧
          p.source.KeepsUnwritten m.module heap ended.2.heap s.objects s'.objects p.block)

theorem RunsStub.writesBack (stub : m.RunsStub helper flags st callee)
    (at_ : m.module.ownedAt? st.stub.handle = some callee) (readies : m.Readies st s address s₁)
    (takes : List.Forall₂ (ParamSlot.Takes m.module s₁) st.stub.params args) (unpinned : s₁.pins = [])
    (before : ∀ (i : Nat) (o : Object), s.objects[i]? = some o → s₁.objects[i]? = some o)
    (oneView : OneView st.stub.params args) {fuel : Nat} {result : Except MachineError (Option Value)}
    (called : m.call fuel callee args s = (result, s₂)) (ended : result ≠ .error .outOfFuel) :
    m.WritesBack st args address s s₂ := by
  obtain ⟨ts, made, passing, passed, natives, n, r, s₃, marshals, reached, converts, invoked,
    concludes⟩ := stub.passes at_ readies takes before (not_starved_of_call called ended)
  have passes := marshals.passesAll
  refine ⟨n, passing, natives, reached, fun fits => ?_⟩
  have sound := passes.pinsSound unpinned fits
  obtain ⟨heap, refreshed, next, fresh, takesBack⟩ :=
    callPinned_takes_back sound (m.world.invoke n) address natives
  refine ⟨heap, refreshed, fresh, fun keeps room p hp old => ?_⟩
  have old₁ : p.source.object.index < s₁.objects.size :=
    (Array.getElem?_eq_some_iff.mp (before _ _ (Array.getElem?_eq_getElem old))).1
  obtain ⟨objects, ran, back⟩ := takesBack keeps room
  have grown (o : Object) (found : s.objects[p.source.object.index]? = some o) :
      passing.objects[p.source.object.index]? = some o :=
    passes.grows.objects _ o (before _ o found)
  -- what comes behind the native call leaves the object alone
  have later (o : Object) (found : objects[p.source.object.index]? = some o) :
      s₂.objects[p.source.object.index]? = some o := by
    have there := (adds_callIndirect converts ran).object found
    have kept := concludes.object (i := p.source.object.index) (fun _ => stub.taken) there ?tables
    case tables =>
      intro r mem same
      obtain ⟨t, ht, rfl⟩ := List.mem_map.mp mem
      have new := marshals.tables.new t ht
      omega
    have final : s₂.objects = s₃.objects := by
      have returned : (m.call fuel callee args s).2 = s₂ := by rw [called]
      rw [← returned, snd_call, objects_releasePins, invoked]
    rwa [final]
  have read := (back.readBack hp sound.sources (passes.only unpinned oneView hp old₁)).mono grown later
  obtain ⟨was, -, images, -⟩ := sound.held p hp
  exact ⟨read, read.keepsUnwritten grown images (fresh p hp was images) (next ▸ fits)⟩

end Machine

/-- At any time in a history of calls, the call of a stub whose symbol is there calls the function once,
with the arguments in memory; and what the function left behind the pointers that it was given is what
the arrays and boxes among the arguments hold behind the call, where it wrote and where it did not. No
two arguments may be different views of one object. -/
theorem Launched.writes_come_back {original : Module} {c : Config} {p : Platform}
    {declared : List LibraryDecl} {types : List TypeScaffold} {m : Machine} {s s₁ s₂ : MachineState}
    (launched : Launched original c p declared types m s)
    (calls : m.CallsStubs types s s₁) {objects : Array Object} {st : StubScaffold} {args : List Value}
    {result : Except MachineError (Option Value)}
    (one : m.CallsStub types st args { s₁ with objects } result s₂) {address : UInt64}
    (right : m.AddressOf st address) (present : address ≠ 0) (oneView : OneView st.stub.params args) :
    m.WritesBack st args address { s₁ with objects } s₂ := by
  obtain ⟨callee, fuel, s₃, called, at_, stub, readies, takes, unpinned, kept, -⟩ :=
    launched.readies calls one right present
  exact stub.writesBack at_ readies takes unpinned kept oneView called one.ended

namespace Module

/-- The second of two numbers is set. -/
theorem writes_come_back_setter : ∃ types m s st s',
    Launched setter Config.default .linux settingLibrary types m s ∧
      m.CallsStub types st [.address (.element ⟨0⟩ 1)]
        { s with objects := #[.array .i32 #[.i32 1, .i32 2]] } (.ok none) s' ∧
      s'.objects[0]? = some (.array .i32 #[.i32 1, .i32 7]) ∧
      m.WritesBack st [.address (.element ⟨0⟩ 1)] 0x7F0000000040
        { s with objects := #[.array .i32 #[.i32 1, .i32 2]] } s' := by
  obtain ⟨types, m, s, st, s', launched, one, array, right, slot, params⟩ := exists_call_setter
  have oneView : OneView st.stub.params [.address (.element ⟨0⟩ 1)] := by
    rw [params]
    intro x hx y hy source source' given given' _
    cases List.mem_singleton.mp hx
    cases List.mem_singleton.mp hy
    exact Option.some.inj (given.symm.trans given')
  exact ⟨types, m, s, st, s', launched, one, array,
    launched.writes_come_back .none one right (by decide) oneView⟩

end Module

end LateBind
