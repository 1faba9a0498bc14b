import LateBind.Proofs.Agreement
import LateBind.Proofs.Layouts
import LateBind.Proofs.Loops
import LateBind.Proofs.Memory
import LateBind.Proofs.StubChecks
import Mathlib.Data.List.Forall2

/-! # Pinned data

Native code works on copies of pinned data. A copy is brought up to date before a native call and
read back after it, so that what the function left there is what managed code finds. Copies may
cover the same items; they are read back in the order in which they were made, and the last one
that covers an item counts. -/

namespace LateBind

open Machine

/-- Values in place one after the other. -/
theorem length_flatten_of_encode {module : Module} {t : TypeRef} {size : Nat} {values : List Value}
    {pieces : List Bytes} (known : module.size t = .ok size)
    (encodes : List.Forall₂ (fun v piece => module.encode t v = .ok piece) values pieces) :
    pieces.flatten.length = size * values.length := by
  induction encodes with
  | nil => rfl
  | cons encoded _ ih =>
    have first := Module.length_of_encode encoded
    rw [known] at first
    cases first
    rw [List.flatten_cons, List.length_append, ih, List.length_cons, Nat.mul_succ, Nat.add_comm]

/-! ## Copies -/

namespace PinSource

/-- How many bytes the copy of a source has. -/
inductive Spans (module : Module) (objects : Array Object) : PinSource → Nat → Prop
  | elements {array : ObjRef} {start size : Nat} {element : TypeRef} {items : Array Value}
      (isArray : objects[array.index]? = some (.array element items)) (inside : start < items.size)
      (lays : module.LaysOut element size) :
      Spans module objects (.elements array start) (size * (items.size - start))
  | boxed {box : ObjRef} {t : TypeRef} {v : Value} {size : Nat}
      (isBox : objects[box.index]? = some (.boxed t v)) (lays : module.LaysOut t size) :
      Spans module objects (.boxed box) size
  | str {text : ObjRef} {units : Units} (isText : objects[text.index]? = some (.str units)) :
      Spans module objects (.str text) (stringImage units).length

/-- What the copy of a source holds when it is up to date. -/
inductive Images (module : Module) (objects : Array Object) : PinSource → Bytes → Prop
  | elements {array : ObjRef} {start size : Nat} {element : TypeRef} {items : Array Value}
      {pieces : List Bytes} (isArray : objects[array.index]? = some (.array element items))
      (inside : start < items.size) (lays : module.LaysOut element size)
      (encodes : List.Forall₂ (fun v piece => module.encode element v = .ok piece)
        (items.toList.drop start) pieces) :
      Images module objects (.elements array start) pieces.flatten
  | boxed {box : ObjRef} {t : TypeRef} {v : Value} {size : Nat} {bytes : Bytes}
      (isBox : objects[box.index]? = some (.boxed t v)) (lays : module.LaysOut t size)
      (encodes : module.encode t v = .ok bytes) : Images module objects (.boxed box) bytes
  | str {text : ObjRef} {units : Units} (isText : objects[text.index]? = some (.str units)) :
      Images module objects (.str text) (stringImage units)

namespace Images

variable {m : Machine} {s : MachineState} {source : PinSource} {bytes bytes' : Bytes}

theorem pinnedBytes (images : source.Images m.module s.objects bytes) :
    m.pinnedBytes source s = (.ok bytes, s) := by
  cases images with
  | elements isArray inside lays encodes =>
    simp [Machine.pinnedBytes, Exec.object_apply isArray, mapM_eq_ok_iff.mpr encodes]
  | boxed isBox lays encodes =>
    simp [Machine.pinnedBytes, Exec.object_apply isBox, encodes]
  | str isText => simp [Machine.pinnedBytes, Exec.object_apply isText]

variable {module : Module} {objects : Array Object}

theorem unique (images : source.Images module objects bytes)
    (images' : source.Images module objects bytes') : bytes = bytes' := by
  let m : Machine := ⟨module, .empty .linux⟩
  let s : MachineState := ⟨.start, [], objects, []⟩
  have same : m.pinnedBytes source s = (.ok bytes, s) := images.pinnedBytes
  have same' : m.pinnedBytes source s = (.ok bytes', s) := images'.pinnedBytes
  rw [same] at same'
  cases same'
  rfl

theorem spans (images : source.Images module objects bytes) :
    source.Spans module objects bytes.length := by
  cases images with
  | boxed isBox lays encodes =>
    have size := Module.length_of_encode encodes
    rw [lays.size] at size
    cases size
    exact .boxed isBox lays
  | str isText => exact .str isText
  | @elements array start size element items pieces isArray inside lays encodes =>
    have count : (items.toList.drop start).length = items.size - start := by simp
    have length := length_flatten_of_encode lays.size encodes
    rw [count] at length
    rw [length]
    exact .elements isArray inside lays

end Images
/-- Copies stay what they are while objects are added. -/
theorem Images.mono {module : Module} {objects objects' : Array Object} {source : PinSource}
    {bytes : Bytes} (images : source.Images module objects bytes)
    (kept : ∀ (i : Nat) (o : Object), objects[i]? = some o → objects'[i]? = some o) :
    source.Images module objects' bytes := by
  cases images with
  | elements isArray inside lays encodes => exact .elements (kept _ _ isArray) inside lays encodes
  | boxed isBox lays encodes => exact .boxed (kept _ _ isBox) lays encodes
  | str isText => exact .str (kept _ _ isText)

end PinSource

/-! ## Pins -/

/-- The state with one more pin. -/
def MachineState.withPin (s : MachineState) (source : PinSource) (bytes : Bytes) : MachineState :=
  { s with
    native := { s.native with heap := (s.native.heap.allocBytes bytes .pinned).2 }
    pins := s.pins ++ [⟨s.native.heap.nextAddress, source⟩] }

namespace Machine

variable {m : Machine} {s : MachineState} {source : PinSource} {bytes : Bytes}

theorem pin_new (fresh : ∀ p ∈ s.pins, p.source ≠ source)
    (images : source.Images m.module s.objects bytes) :
    m.pin source s = (.ok s.native.heap.nextAddress, s.withPin source bytes) := by
  have missing : s.pins.find? (·.source == source) = none := by
    rw [List.find?_eq_none]
    intro p hp same
    exact fresh p hp (beq_iff_eq.mp same)
  simp [pin, missing, images.pinnedBytes, Exec.allocBytes, Exec.setHeap, MachineState.withPin]
  rfl

theorem pin_old {p : Pin} (found : s.pins.find? (·.source == source) = some p) :
    m.pin source s = (.ok p.block, s) := by
  simp [pin, found]

end Machine

/-- Every pin has a block of its own, which is as long as its copy, and no source is pinned twice. -/
structure MachineState.PinsSound (module : Module) (s : MachineState) : Prop where
  held : ∀ p ∈ s.pins, ∃ bytes old, p.source.Images module s.objects bytes ∧
    s.native.heap.Stores p.block old ∧ old.length = bytes.length
  blocks : s.pins.Pairwise fun p q => p.block ≠ q.block
  sources : s.pins.Pairwise fun p q => p.source ≠ q.source
  fits : s.native.heap.next ≤ 2 ^ 64

namespace MachineState.PinsSound

variable {module : Module} {s : MachineState} {source : PinSource} {bytes : Bytes}

theorem withPin (sound : s.PinsSound module) (fresh : ∀ p ∈ s.pins, p.source ≠ source)
    (images : source.Images module s.objects bytes)
    (fits : (s.withPin source bytes).native.heap.next ≤ 2 ^ 64) :
    (s.withPin source bytes).PinsSound module := by
  have more : s.native.heap.next < 2 ^ 64 := by
    have := s.native.heap.next_lt_add (.ofBytes s.native.heap.nextAddress bytes .pinned)
    exact Nat.lt_of_lt_of_le (Nat.lt_of_le_of_lt (Nat.le_add_right _ _) this) fits
  have older (p : Pin) (hp : p ∈ s.pins) : p.block ≠ s.native.heap.nextAddress := by
    obtain ⟨_, old, _, ⟨_, _, _, _, _, _, _, below⟩, _⟩ := sound.held p hp
    intro same
    rw [same, Heap.toNat_nextAddress more] at below
    omega
  refine ⟨?_, ?_, ?_, fits⟩
  · intro p hp
    rcases List.mem_append.mp hp with hp | hp
    · obtain ⟨bytes, old, images, stores, length⟩ := sound.held p hp
      exact ⟨bytes, old, images, stores.add more rfl, length⟩
    · cases List.mem_singleton.mp hp
      refine ⟨bytes, bytes, images, ?_, rfl⟩
      have stored := Heap.stores_add more
        (show (Block.ofBytes s.native.heap.nextAddress bytes .pinned).start = _ from rfl)
      rw [Block.bytes_ofBytes] at stored
      exact stored
  · refine List.pairwise_append.mpr ⟨sound.blocks, List.pairwise_singleton _ _, ?_⟩
    intro p hp q hq
    cases List.mem_singleton.mp hq
    exact older p hp
  · refine List.pairwise_append.mpr ⟨sound.sources, List.pairwise_singleton _ _, ?_⟩
    intro p hp q hq
    cases List.mem_singleton.mp hq
    exact fresh p hp

theorem withObject (sound : s.PinsSound module) (o : Object) : (s.withObject o).PinsSound module where
  held p hp := by
    obtain ⟨bytes, old, images, stores, length⟩ := sound.held p hp
    exact ⟨bytes, old, images.mono fun _ _ found => object_withObject found o, stores, length⟩
  blocks := sound.blocks
  sources := sound.sources
  fits := sound.fits

end MachineState.PinsSound

/-! ## Before a native call -/

namespace Machine

variable {m : Machine} {s : MachineState}

/-- One copy is brought up to date, and no other block changes. -/
theorem refresh_apply {p : Pin} {bytes old : Bytes}
    (images : p.source.Images m.module s.objects bytes) (stores : s.native.heap.Stores p.block old)
    (length : old.length = bytes.length) (fits : s.native.heap.next ≤ 2 ^ 64) :
    ∃ heap, m.refresh p s = (.ok (), s.withHeap heap) ∧ heap.next = s.native.heap.next ∧
      heap.Stores p.block bytes ∧ ∀ other bytes', other ≠ p.block →
        s.native.heap.Stores other bytes' → heap.Stores other bytes' := by
  obtain ⟨heap, written, next, stored, others⟩ := stores.write? fits length.symm
  refine ⟨heap, ?_, next, stored, others⟩
  simp [refresh, images.pinnedBytes, Exec.access, written, Exec.setHeap, MachineState.withHeap]

/-- All copies are brought up to date. -/
theorem refreshAll_apply {pins : List Pin} (fits : s.native.heap.next ≤ 2 ^ 64)
    (held : ∀ p ∈ pins, ∃ bytes old, p.source.Images m.module s.objects bytes ∧
      s.native.heap.Stores p.block old ∧ old.length = bytes.length)
    (blocks : pins.Pairwise fun p q => p.block ≠ q.block) :
    ∃ heap, pins.forM m.refresh s = (.ok (), s.withHeap heap) ∧ heap.next = s.native.heap.next ∧
      (∀ p ∈ pins, ∀ bytes, p.source.Images m.module s.objects bytes →
        heap.Stores p.block bytes) ∧
      ∀ other bytes, (∀ p ∈ pins, other ≠ p.block) → s.native.heap.Stores other bytes →
        heap.Stores other bytes := by
  induction pins generalizing s with
  | nil => exact ⟨s.native.heap, rfl, rfl, nofun, fun _ _ _ stores => stores⟩
  | cons p pins ih =>
    obtain ⟨distinct, blocks⟩ := List.pairwise_cons.mp blocks
    obtain ⟨bytes, old, images, stores, length⟩ := held p List.mem_cons_self
    obtain ⟨heap₁, first, next₁, stored, others₁⟩ := refresh_apply images stores length fits
    have held' : ∀ q ∈ pins, ∃ bytes old, q.source.Images m.module s.objects bytes ∧
        heap₁.Stores q.block old ∧ old.length = bytes.length := by
      intro q hq
      obtain ⟨bytes, old, images, stores, length⟩ := held q (List.mem_cons_of_mem _ hq)
      exact ⟨bytes, old, images, others₁ _ _ (distinct q hq).symm stores, length⟩
    obtain ⟨heap₂, rest, next₂, all, others₂⟩ :=
      ih (s := s.withHeap heap₁) (next₁ ▸ fits) held' blocks
    refine ⟨heap₂, ?_, next₂.trans next₁, ?_, ?_⟩
    · exact (Exec.bind_ok first fun _ => pins.forM m.refresh).trans rest
    · intro q hq bytes' images'
      rcases List.mem_cons.mp hq with rfl | hq
      · cases images.unique images'
        exact others₂ _ _ (fun q hq => distinct q hq) stored
      · exact all q hq bytes' images'
    · intro other bytes' apart stores'
      exact others₂ _ _ (fun q hq => apart q (List.mem_cons_of_mem _ hq))
        (others₁ _ _ (apart p List.mem_cons_self) stores')

theorem refreshPins_apply (sound : s.PinsSound m.module) :
    ∃ heap, m.refreshPins s = (.ok (), s.withHeap heap) ∧ heap.next = s.native.heap.next ∧
      (∀ p ∈ s.pins, ∀ bytes, p.source.Images m.module s.objects bytes →
        heap.Stores p.block bytes) ∧
      ∀ other bytes, (∀ p ∈ s.pins, other ≠ p.block) → s.native.heap.Stores other bytes →
        heap.Stores other bytes := by
  obtain ⟨heap, refreshed, next, all, others⟩ := refreshAll_apply sound.fits sound.held sound.blocks
  exact ⟨heap, by simpa [refreshPins] using refreshed, next, all, others⟩

end Machine

/-! ## After a native call -/

theorem Heap.length_of_read? {heap : Heap} {address : UInt64} {n : Nat} {data : Bytes}
    (read : heap.read? address n = some data) : data.length = n := by
  obtain ⟨_, -, rfl⟩ := Option.map_eq_some_iff.mp read
  exact Block.length_read _ _ _

/-- All values that lie one after the other can be read. -/
theorem exists_decode_chunks {module : Module} {t : TypeRef} {size n : Nat} {data : Bytes}
    (lays : module.LaysOut t size) (length : data.length = size * n) :
    ∃ values, (data.chunks size).mapM (module.decode t) = .ok values ∧ values.length = n ∧
      ∀ j, j < n → ∃ v, values[j]? = some v ∧ module.decode t (data.drop (j * size)) = .ok v := by
  have pos := Module.size_pos lays.size
  have count : data.length / size = n := by rw [length, Nat.mul_div_cancel_left n pos]
  have inside (j : Nat) (hj : j < n) : j * size + size ≤ data.length := by
    have := Nat.mul_le_mul_right size (Nat.succ_le_of_lt hj)
    rw [length, Nat.mul_comm size n]
    rwa [Nat.succ_mul] at this
  have each : ∀ c ∈ data.chunks size, ∃ v, module.decode t c = .ok v := by
    intro c hc
    obtain ⟨j, hj, rfl⟩ := List.mem_map.mp hc
    rw [List.mem_range, count] at hj
    refine lays.decode_isOk ?_
    have := inside j hj
    rw [List.length_take, List.length_drop]
    omega
  obtain ⟨values, decoded⟩ := (Module.exists_mapM_eq_ok_iff _ _).mpr each
  have all := mapM_eq_ok_iff.mp decoded
  have length' : values.length = n := by
    rw [← all.length_eq, Bytes.chunks, List.length_map, List.length_range, count]
  refine ⟨values, decoded, length', fun j hj => ?_⟩
  have there : j < values.length := by omega
  have chunk (_ : j < (data.chunks size).length) :
      (data.chunks size)[j] = (data.drop (j * size)).take size := by simp [Bytes.chunks]
  have decoded_j := all.get (i := j) (by rw [all.length_eq]; exact there) there
  rw [List.get_eq_getElem, List.get_eq_getElem, chunk,
    Module.decode_take lays.size (Nat.le_refl size)] at decoded_j
  exact ⟨values[j], List.getElem?_eq_getElem there, decoded_j⟩

/-- The items of an array from a place on are replaced. -/
theorem getElem?_take_append (items : Array Value) (values : List Value) {start : Nat}
    (le : start ≤ items.size) (i : Nat) : (items.take start ++ values)[i]? =
      if i < start then items[i]? else values[i - start]? := by
  rw [← Array.getElem?_toList, Array.toList_appendList, List.getElem?_append]
  by_cases low : i < start
  · simp [low, Nat.lt_of_lt_of_le low le]
  · simp [low, Nat.min_eq_left le]

/-- The pin is a copy of an item of an array. -/
def Pin.Covers (p : Pin) (array : ObjRef) (i : Nat) : Prop :=
  ∃ start, p.source = .elements array start ∧ start ≤ i

namespace Machine

variable {m : Machine} {s : MachineState} {p : Pin} {r : ObjRef} {data : Bytes}

theorem takeBack_elements {start size : Nat} {element : TypeRef} {items : Array Value}
    (source : p.source = .elements r start)
    (isArray : s.objects[r.index]? = some (.array element items)) (inside : start ≤ items.size)
    (lays : m.module.LaysOut element size)
    (read : s.native.heap.read? p.block (size * (items.size - start)) = some data) :
    ∃ values : List Value, values.length = items.size - start ∧
      (∀ j, j < items.size - start → ∃ v, values[j]? = some v ∧
        m.module.decode element (data.drop (j * size)) = .ok v) ∧
      m.takeBack p s = (.ok (), { s with
        objects := s.objects.setIfInBounds r.index (.array element (items.take start ++ values)) }) := by
  obtain ⟨values, decoded, length, each⟩ :=
    exists_decode_chunks lays (Heap.length_of_read? read)
  refine ⟨values, length, each, ?_⟩
  simp [takeBack, source, Exec.object_apply isArray, lays.size, Exec.access, inside, read, decoded,
    Exec.setObject]

theorem takeBack_boxed {size : Nat} {t : TypeRef} {v : Value} (source : p.source = .boxed r)
    (isBox : s.objects[r.index]? = some (.boxed t v)) (lays : m.module.LaysOut t size)
    (read : s.native.heap.read? p.block size = some data) :
    ∃ v', m.module.decode t data = .ok v' ∧ m.takeBack p s = (.ok (), { s with
      objects := s.objects.setIfInBounds r.index (.boxed t v') }) := by
  obtain ⟨v', decoded⟩ := lays.decode_isOk (Nat.le_of_eq (Heap.length_of_read? read).symm)
  refine ⟨v', decoded, ?_⟩
  simp [takeBack, source, Exec.object_apply isBox, lays.size, Exec.access, read, decoded,
    Exec.setObject]

theorem takeBack_str (source : p.source = .str r) : m.takeBack p s = (.ok (), s) := by
  simp [takeBack, source]

end Machine

/-- How an array was read back: an item of which there is no copy is as before, and any other is what
native memory holds in the last of its copies. -/
structure ArrayTakenBack (module : Module) (heap : Heap) (pins : List Pin) (r : ObjRef)
    (element : TypeRef) (items items' : Array Value) : Prop where
  size : items'.size = items.size
  kept : ∀ i, (∀ p ∈ pins, ¬p.Covers r i) → items'[i]? = items[i]?
  read : ∀ before p after start i, pins = before ++ p :: after → p.source = .elements r start →
    start ≤ i → i < items.size → (∀ q ∈ after, ¬q.Covers r i) →
    ∃ width data v, module.size element = .ok width ∧
      heap.read? p.block (width * (items.size - start)) = some data ∧
      module.decode element (data.drop ((i - start) * width)) = .ok v ∧ items'[i]? = some v

/-- How a box was read back. -/
structure BoxTakenBack (module : Module) (heap : Heap) (pins : List Pin) (r : ObjRef) (t : TypeRef)
    (v v' : Value) : Prop where
  kept : (∀ p ∈ pins, p.source ≠ .boxed r) → v' = v
  read : ∀ before p after, pins = before ++ p :: after → p.source = .boxed r →
    (∀ q ∈ after, q.source ≠ .boxed r) →
    ∃ width data, module.size t = .ok width ∧ heap.read? p.block width = some data ∧
      module.decode t data = .ok v'

/-- How all objects were read back. -/
structure TakenBack (module : Module) (heap : Heap) (pins : List Pin)
    (objects objects' : Array Object) : Prop where
  array : ∀ (r : ObjRef) element items, objects[r.index]? = some (.array element items) →
    ∃ items', objects'[r.index]? = some (.array element items') ∧
      ArrayTakenBack module heap pins r element items items'
  box : ∀ (r : ObjRef) t v, objects[r.index]? = some (.boxed t v) →
    ∃ v', objects'[r.index]? = some (.boxed t v') ∧ BoxTakenBack module heap pins r t v v'
  other : ∀ (i : Nat) o, objects[i]? = some o → (∀ element items, o ≠ .array element items) →
    (∀ t v, o ≠ .boxed t v) → objects'[i]? = some o

section Lists

variable {module : Module} {heap : Heap} {p : Pin} {pins : List Pin} {r : ObjRef}

theorem ArrayTakenBack.refl {element : TypeRef} {items : Array Value}
    (apart : ∀ p ∈ pins, ∀ i, ¬p.Covers r i) :
    ArrayTakenBack module heap pins r element items items := by
  refine ⟨rfl, fun _ _ => rfl, ?_⟩
  rintro before p after start i rfl source low
  exact absurd ⟨start, source, low⟩ (apart p (by simp) i)

/-- The first pin is read back before the others. -/
theorem ArrayTakenBack.cons {element : TypeRef} {items items₁ items₂ : Array Value}
    (first : ArrayTakenBack module heap [p] r element items items₁)
    (rest : ArrayTakenBack module heap pins r element items₁ items₂) :
    ArrayTakenBack module heap (p :: pins) r element items items₂ := by
  refine ⟨rest.size.trans first.size, fun i uncovered => ?_, ?_⟩
  · rw [rest.kept i fun q hq => uncovered q (List.mem_cons_of_mem _ hq),
      first.kept i (by simpa using uncovered p List.mem_cons_self)]
  · intro before q after start i split source low inside last
    cases before with
    | nil =>
      cases split
      obtain ⟨width, data, v, size, read, decoded, at_⟩ :=
        first.read [] p [] start i rfl source low inside nofun
      exact ⟨width, data, v, size, read, decoded, (rest.kept i last).trans at_⟩
    | cons _ before =>
      cases split
      obtain ⟨width, data, v, size, read, decoded, at_⟩ :=
        rest.read before q after start i rfl source low (first.size ▸ inside) last
      rw [first.size] at read
      exact ⟨width, data, v, size, read, decoded, at_⟩

theorem BoxTakenBack.refl {t : TypeRef} {v : Value} (apart : ∀ p ∈ pins, p.source ≠ .boxed r) :
    BoxTakenBack module heap pins r t v v := by
  refine ⟨fun _ => rfl, ?_⟩
  rintro before p after rfl source
  exact absurd source (apart p (by simp))

theorem BoxTakenBack.cons {t : TypeRef} {v v₁ v₂ : Value}
    (first : BoxTakenBack module heap [p] r t v v₁) (rest : BoxTakenBack module heap pins r t v₁ v₂) :
    BoxTakenBack module heap (p :: pins) r t v v₂ := by
  refine ⟨fun uncovered => ?_, ?_⟩
  · rw [rest.kept fun q hq => uncovered q (List.mem_cons_of_mem _ hq),
      first.kept (by simpa using uncovered p List.mem_cons_self)]
  · intro before q after split source last
    cases before with
    | nil =>
      cases split
      rw [rest.kept last]
      exact first.read [] p [] rfl source nofun
    | cons _ before =>
      cases split
      exact rest.read before q after rfl source last

variable {objects objects₁ objects₂ : Array Object}

theorem TakenBack.refl (objects : Array Object) (apart : ∀ p ∈ pins, ∃ text, p.source = .str text) :
    TakenBack module heap pins objects objects where
  array r _ items found := by
    refine ⟨items, found, .refl ?_⟩
    rintro p hp i ⟨start, source, -⟩
    obtain ⟨text, source'⟩ := apart p hp
    cases source.symm.trans source'
  box r _ v found := by
    refine ⟨v, found, .refl ?_⟩
    intro p hp source
    obtain ⟨text, source'⟩ := apart p hp
    cases source.symm.trans source'
  other _ _ found _ _ := found

theorem TakenBack.cons (first : TakenBack module heap [p] objects objects₁)
    (rest : TakenBack module heap pins objects₁ objects₂) :
    TakenBack module heap (p :: pins) objects objects₂ where
  array r element items found := by
    obtain ⟨items₁, found₁, back₁⟩ := first.array r element items found
    obtain ⟨items₂, found₂, back₂⟩ := rest.array r element items₁ found₁
    exact ⟨items₂, found₂, back₁.cons back₂⟩
  box r t v found := by
    obtain ⟨v₁, found₁, back₁⟩ := first.box r t v found
    obtain ⟨v₂, found₂, back₂⟩ := rest.box r t v₁ found₁
    exact ⟨v₂, found₂, back₁.cons back₂⟩
  other i o found noArray noBox :=
    rest.other i o (first.other i o found noArray noBox) noArray noBox

/-- One array is replaced. -/
theorem TakenBack.of_array {element : TypeRef} {start : Nat} {items items' : Array Value}
    (source : p.source = .elements r start) (isArray : objects[r.index]? = some (.array element items))
    (back : ArrayTakenBack module heap [p] r element items items') :
    TakenBack module heap [p] objects (objects.setIfInBounds r.index (.array element items')) := by
  have inside : r.index < objects.size := (Array.getElem?_eq_some_iff.mp isArray).1
  have elsewhere {i : Nat} (differ : r.index ≠ i) :
      (objects.setIfInBounds r.index (.array element items'))[i]? = objects[i]? :=
    Array.getElem?_setIfInBounds_ne differ
  refine ⟨fun r' element' items₀ found => ?_, fun r' t v found => ?_, fun i o found noArray _ => ?_⟩
  · by_cases same : r.index = r'.index
    · obtain rfl : r = r' := by
        cases r
        cases r'
        exact congrArg ObjRef.mk same
      cases isArray.symm.trans found
      exact ⟨items', Array.getElem?_setIfInBounds_self_of_lt inside, back⟩
    · refine ⟨items₀, (elsewhere same).trans found, .refl ?_⟩
      rintro q hq i ⟨start', source', -⟩
      rw [List.mem_singleton.mp hq, source] at source'
      cases source'
      exact same rfl
  · refine ⟨v, (elsewhere ?_).trans found, .refl ?_⟩
    · intro same
      cases isArray.symm.trans (same ▸ found)
    · intro q hq source'
      rw [List.mem_singleton.mp hq, source] at source'
      cases source'
  · refine (elsewhere ?_).trans found
    intro same
    cases isArray.symm.trans (same ▸ found)
    exact noArray _ _ rfl

/-- One box is replaced. -/
theorem TakenBack.of_box {t : TypeRef} {v v' : Value} (source : p.source = .boxed r)
    (isBox : objects[r.index]? = some (.boxed t v)) (back : BoxTakenBack module heap [p] r t v v') :
    TakenBack module heap [p] objects (objects.setIfInBounds r.index (.boxed t v')) := by
  have inside : r.index < objects.size := (Array.getElem?_eq_some_iff.mp isBox).1
  have elsewhere {i : Nat} (differ : r.index ≠ i) :
      (objects.setIfInBounds r.index (.boxed t v'))[i]? = objects[i]? :=
    Array.getElem?_setIfInBounds_ne differ
  refine ⟨fun r' element items found => ?_, fun r' t' v₀ found => ?_, fun i o found _ noBox => ?_⟩
  · refine ⟨items, (elsewhere ?_).trans found, .refl ?_⟩
    · intro same
      cases isBox.symm.trans (same ▸ found)
    · rintro q hq i ⟨start', source', -⟩
      rw [List.mem_singleton.mp hq, source] at source'
      cases source'
  · by_cases same : r.index = r'.index
    · obtain rfl : r = r' := by
        cases r
        cases r'
        exact congrArg ObjRef.mk same
      cases isBox.symm.trans found
      exact ⟨v', Array.getElem?_setIfInBounds_self_of_lt inside, back⟩
    · refine ⟨v₀, (elsewhere same).trans found, .refl ?_⟩
      intro q hq source'
      rw [List.mem_singleton.mp hq, source] at source'
      cases source'
      exact same rfl
  · refine (elsewhere ?_).trans found
    intro same
    cases isBox.symm.trans (same ▸ found)
    exact noBox _ _ rfl

/-- Copies keep their lengths. -/
theorem TakenBack.spans {source : PinSource} {n : Nat}
    (back : TakenBack module heap pins objects objects₁) (spans : source.Spans module objects n) :
    source.Spans module objects₁ n := by
  cases spans with
  | elements isArray inside lays =>
    obtain ⟨items', isArray', taken⟩ := back.array _ _ _ isArray
    rw [← taken.size] at inside ⊢
    exact .elements isArray' inside lays
  | boxed isBox lays =>
    obtain ⟨v', isBox', -⟩ := back.box _ _ _ isBox
    exact .boxed isBox' lays
  | str isText => exact .str (back.other _ _ isText nofun nofun)

end Lists

namespace Machine

variable {m : Machine} {s : MachineState} {p : Pin}

/-- One copy is read back. -/
theorem takeBack_apply {n : Nat} {data : Bytes} (spans : p.source.Spans m.module s.objects n)
    (read : s.native.heap.read? p.block n = some data) :
    ∃ objects, m.takeBack p s = (.ok (), { s with objects }) ∧
      TakenBack m.module s.native.heap [p] s.objects objects := by
  generalize source : p.source = pinned at spans
  cases spans with
  | str isText =>
    exact ⟨s.objects, takeBack_str source, .refl _ (by simp [source])⟩
  | @elements array start size element items isArray inside lays =>
    obtain ⟨values, length, each, taken⟩ := takeBack_elements source isArray inside.le lays read
    have joined := getElem?_take_append items values inside.le
    refine ⟨_, taken, .of_array source isArray ⟨?_, fun i uncovered => ?_, ?_⟩⟩
    · rw [← Array.length_toList, Array.toList_appendList]
      simp
      omega
    · rw [joined, if_pos]
      by_contra high
      exact uncovered p List.mem_cons_self ⟨start, source, Nat.le_of_not_lt high⟩
    · intro before q after start' i split source' low inside' _
      obtain rfl : q = p := by
        have mem : q ∈ [p] := by simp [split]
        exact List.mem_singleton.mp mem
      cases source.symm.trans source'
      obtain ⟨v, at_, decoded⟩ := each (i - start) (by omega)
      refine ⟨size, data, v, lays.size, read, decoded, ?_⟩
      rw [joined, if_neg (Nat.not_lt.mpr low), at_]
  | @boxed box t v size isBox lays =>
    obtain ⟨v', decoded, taken⟩ := takeBack_boxed source isBox lays read
    refine ⟨_, taken, .of_box source isBox ⟨fun uncovered => ?_, ?_⟩⟩
    · exact absurd source (uncovered p List.mem_cons_self)
    · intro before q after split source' _
      obtain rfl : q = p := by
        have mem : q ∈ [p] := by simp [split]
        exact List.mem_singleton.mp mem
      exact ⟨n, data, lays.size, read, decoded⟩

/-- All copies are read back. -/
theorem takeBackAll_apply {pins : List Pin}
    (held : ∀ p ∈ pins, ∃ n data, p.source.Spans m.module s.objects n ∧
      s.native.heap.read? p.block n = some data) :
    ∃ objects, pins.forM m.takeBack s = (.ok (), { s with objects }) ∧
      TakenBack m.module s.native.heap pins s.objects objects := by
  induction pins generalizing s with
  | nil => exact ⟨s.objects, rfl, .refl _ nofun⟩
  | cons p pins ih =>
    obtain ⟨n, data, spans, read⟩ := held p List.mem_cons_self
    obtain ⟨objects₁, taken, first⟩ := takeBack_apply spans read
    have held' : ∀ q ∈ pins, ∃ n data, q.source.Spans m.module objects₁ n ∧
        s.native.heap.read? q.block n = some data := by
      intro q hq
      obtain ⟨n, data, spans, read⟩ := held q (List.mem_cons_of_mem _ hq)
      exact ⟨n, data, first.spans spans, read⟩
    obtain ⟨objects₂, others, rest⟩ := ih (s := { s with objects := objects₁ }) held'
    exact ⟨objects₂, (Exec.bind_ok taken fun _ => pins.forM m.takeBack).trans others, first.cons rest⟩

theorem takeBackPins_apply (held : ∀ p ∈ s.pins, ∃ n data, p.source.Spans m.module s.objects n ∧
      s.native.heap.read? p.block n = some data) :
    ∃ objects, m.takeBackPins s = (.ok (), { s with objects }) ∧
      TakenBack m.module s.native.heap s.pins s.objects objects := by
  obtain ⟨objects, taken, back⟩ := takeBackAll_apply held
  exact ⟨objects, by simpa [takeBackPins] using taken, back⟩

end Machine

/-! ## Around a native call -/

/-- No block goes away or changes its size. -/
def Heap.Keeps (h h' : Heap) : Prop :=
  ∀ start bytes, h.Stores start bytes → ∃ bytes', h'.Stores start bytes' ∧ bytes'.length = bytes.length

namespace Heap

variable {h h' : Heap}

/-- Writing changes what a block holds, not where it lies. -/
theorem keeps_write {address : UInt64} {data : Bytes} (written : h.write? address data = some h') :
    h.Keeps h' := by
  obtain ⟨⟨block, offset⟩, -, rfl⟩ := Option.map_eq_some_iff.mp written
  rintro start bytes ⟨later, b, earlier, blocks, rfl, rfl, above, below⟩
  let replace (b : Block) : Block := if b.start = block.start then b.write offset data else b
  have start_replace (b : Block) : (replace b).start = b.start := by
    unfold replace
    split <;> rfl
  have size_replace (b : Block) : (replace b).size = b.size := by
    unfold replace
    split <;> rfl
  have length : (replace b).bytes.length = b.bytes.length := by
    rw [Block.length_bytes, Block.length_bytes, size_replace]
  refine ⟨(replace b).bytes, ⟨later.map replace, replace b, earlier.map replace, ?_, start_replace b,
    rfl, ?_, ?_⟩, length⟩
  · simp only [blocks, List.map_append, List.map_cons]
    rfl
  · intro c hc
    obtain ⟨c, hc', rfl⟩ := List.mem_map.mp hc
    rw [start_replace, length]
    exact above c hc'
  · rw [length]
    exact below

end Heap

namespace Machine

variable {m : Machine} {s : MachineState}

/-- A native call finds all copies up to date. When it frees no block, what it left in them is read
back, whether it returns or raises. -/
theorem callPinned_takes_back (sound : s.PinsSound m.module) (call : NativeCall) (address : UInt64)
    (args : List NativeValue) :
    ∃ heap : Heap, m.refreshPins s = (.ok (), s.withHeap heap) ∧ heap.next = s.native.heap.next ∧
      (∀ p ∈ s.pins, ∀ bytes, p.source.Images m.module s.objects bytes →
        heap.Stores p.block bytes) ∧
      (let ended := call address args (s.withHeap heap).native
      heap.Keeps ended.2.heap → ended.2.heap.next ≤ 2 ^ 64 →
        ∃ objects, m.callPinned call address args s =
            (.ok ended.1, { s with native := ended.2, objects }) ∧
          TakenBack m.module ended.2.heap s.pins s.objects objects) := by
  obtain ⟨heap, refreshed, next, fresh, -⟩ := refreshPins_apply sound
  refine ⟨heap, refreshed, next, fresh, fun keeps fits => ?_⟩
  let ended := call address args (s.withHeap heap).native
  have held : ∀ p ∈ s.pins, ∃ n data, p.source.Spans m.module s.objects n ∧
      ended.2.heap.read? p.block n = some data := by
    intro p hp
    obtain ⟨bytes, _, images, -⟩ := sound.held p hp
    obtain ⟨data, stores, length⟩ := keeps _ _ (fresh p hp bytes images)
    exact ⟨bytes.length, data, images.spans, length ▸ stores.read?_start fits⟩
  obtain ⟨objects, taken, back⟩ :=
    takeBackPins_apply (m := m) (s := { s with native := ended.2 }) held
  have called : Exec.native (call address args) (s.withHeap heap) =
      (.ok ended.1, { s with native := ended.2 }) := rfl
  refine ⟨objects, ?_, back⟩
  unfold callPinned
  rw [Exec.bind_ok refreshed, Exec.bind_ok called, Exec.bind_ok taken]
  rfl

end Machine

end LateBind
