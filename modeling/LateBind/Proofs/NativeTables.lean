import LateBind.Proofs.Effects
import LateBind.Proofs.ResultCode

/-! # Tables behind a native call

Native code may write to the tables that it is given, so what is in them afterwards can be any
addresses; but they are tables of the same length. The copies are given back from what is in them. -/

namespace LateBind

open Machine

/-! ## What only looks -/

namespace Exec

variable {α β : Type}

/-- The computation changes nothing. -/
def Looks (x : Exec α) : Prop := ∀ s, (x s).2 = s

theorem looks_pure (a : α) : Looks (pure a : Exec α) := fun _ => rfl

theorem looks_fatal (e : MachineError) : Looks (fatal e : Exec α) := fun _ => rfl

theorem looks_lift (x : Except MachineError α) : Looks (lift x) := by
  cases x with
  | ok a => exact looks_pure a
  | error e => exact looks_fatal e

theorem Looks.bind {x : Exec α} {f : α → Exec β} (hx : Looks x) (hf : ∀ a, Looks (f a)) :
    Looks (x >>= f) := by
  intro s
  have same := hx s
  rcases ran : x s with ⟨r, s'⟩
  rw [ran] at same
  obtain rfl : s' = s := same
  cases r with
  | error t => rw [bind_error ran]
  | ok a => rw [bind_ok ran, hf]

theorem looks_get : Looks (get : Exec MachineState) := fun _ => rfl

theorem looks_object (r : ObjRef) : Looks (object r) :=
  looks_get.bind fun _ => by
    split
    · exact looks_pure _
    · exact looks_fatal _

theorem looks_access (address : UInt64) (look : Heap → Option α) : Looks (access address look) :=
  looks_get.bind fun _ => by
    split
    · exact looks_pure _
    · exact looks_fatal _

theorem Looks.keeps {X : MachineError → Prop} {P : MachineState → Prop} {x : Exec α} (hx : Looks x) :
    Keeps X P x := fun s holds => .inr ((hx s).symm ▸ holds)

theorem keeps_forM {X : MachineError → Prop} {P : MachineState → Prop} {f : α → Exec PUnit}
    {items : List α} (hf : ∀ a, Keeps X P (f a)) : Keeps X P (items.forM f) := by
  induction items with
  | nil => exact keeps_pure _
  | cons a items ih => exact (hf a).bind fun _ => ih

end Exec

open Exec

namespace Machine

variable {m : Machine} {X : MachineError → Prop} {s : MachineState}

theorem looks_pinnedBytes (source : PinSource) : Looks (m.pinnedBytes source) := by
  cases source with
  | elements array start =>
    refine (looks_object array).bind fun o => ?_
    split
    · exact (looks_lift _).bind fun _ => looks_pure _
    · exact looks_fatal _
  | boxed box =>
    refine (looks_object box).bind fun o => ?_
    split
    · exact looks_lift _
    · exact looks_fatal _
  | str text =>
    refine (looks_object text).bind fun o => ?_
    split
    · exact looks_pure _
    · exact looks_fatal _

/-- What reading back one pin does: nothing, or it replaces the array or the box. -/
inductive ReadBack (m : Machine) (p : Pin) (s : MachineState) : MachineState → Prop
  | same : ReadBack m p s s
  | array {r : ObjRef} {start size : Nat} {element : TypeRef} {items : Array Value} {data : Bytes}
      {read : List Value} (source : p.source = .elements r start)
      (isArray : s.objects[r.index]? = some (.array element items))
      (known : m.module.size element = .ok size) (length : data.length = size * (items.size - start))
      (decoded : (data.chunks size).mapM (m.module.decode element) = .ok read) :
      ReadBack m p s { s with
        objects := s.objects.setIfInBounds r.index (.array element (items.take start ++ read)) }
  | box {r : ObjRef} {t : TypeRef} {v v' : Value} (source : p.source = .boxed r)
      (isBox : s.objects[r.index]? = some (.boxed t v)) :
      ReadBack m p s { s with objects := s.objects.setIfInBounds r.index (.boxed t v') }

theorem readBack (m : Machine) (p : Pin) (s : MachineState) : m.ReadBack p s (m.takeBack p s).2 := by
  unfold takeBack
  cases source : p.source with
  | str text => exact .same
  | elements r start =>
    cases found : s.objects[r.index]? with
    | none => simpa [object, found, unsupported, fatal] using ReadBack.same
    | some o =>
      cases o with
      | array element items =>
        cases known : m.module.size element with
        | error e => simpa [object_apply found, known, lift, fatal] using ReadBack.same
        | ok size =>
          by_cases inside : start ≤ items.size
          case neg => simpa [object_apply found, known, access, inside, fatal] using ReadBack.same
          cases read : s.native.heap.read? p.block (size * (items.size - start)) with
          | none => simpa [object_apply found, known, access, inside, read, fatal] using ReadBack.same
          | some data =>
            cases decoded : (data.chunks size).mapM (m.module.decode element) with
            | error e =>
              simpa [object_apply found, known, access, inside, read, decoded, lift, fatal] using
                ReadBack.same
            | ok values =>
              simpa [object_apply found, known, access, inside, read, decoded, setObject] using
                ReadBack.array source found known (Heap.length_of_read? read) decoded
      | _ => simpa [object_apply found] using ReadBack.same
  | boxed r =>
    cases found : s.objects[r.index]? with
    | none => simpa [object, found, unsupported, fatal] using ReadBack.same
    | some o =>
      cases o with
      | boxed t v =>
        cases known : m.module.size t with
        | error e => simpa [object_apply found, known, lift, fatal] using ReadBack.same
        | ok size =>
          cases read : s.native.heap.read? p.block size with
          | none => simpa [object_apply found, known, access, read, fatal] using ReadBack.same
          | some data =>
            cases decoded : m.module.decode t data with
            | error e =>
              simpa [object_apply found, known, access, read, decoded, lift, fatal] using ReadBack.same
            | ok v' =>
              simpa [object_apply found, known, access, read, decoded, setObject] using
                ReadBack.box source found
      | _ => simpa [object_apply found] using ReadBack.same

end Machine

/-! ## Tables -/

/-- There is a table of so many addresses. -/
def MachineState.HasTable (s : MachineState) (r : ObjRef) (n : Nat) : Prop :=
  ∃ addresses, addresses.length = n ∧ s.objects[r.index]? = some (.ofAddresses addresses)

/-- What can be read where an address stands is an address. -/
theorem Module.decode_intPtr {module : Module} {bytes : Bytes} {v : Value}
    (decoded : module.decode .intPtr bytes = .ok v) : ∃ p, v = .ptr p := by
  have known : module.size .intPtr = .ok 8 := rfl
  have own : module.represent .intPtr = .intPtr := rfl
  simp only [decode, own, known, bind, Except.bind] at decoded
  split at decoded
  · cases decoded
  · cases decoded
    exact ⟨_, rfl⟩

namespace MachineState.HasTable

variable {m : Machine} {X : MachineError → Prop} {s s' : MachineState} {r : ObjRef} {n : Nat}

theorem of_objects (has : s.HasTable r n) (same : s'.objects = s.objects) : s'.HasTable r n := by
  obtain ⟨addresses, length, isTable⟩ := has
  exact ⟨addresses, length, same ▸ isTable⟩

theorem adds (has : s.HasTable r n) (adds : s.Adds s') : s'.HasTable r n := by
  obtain ⟨addresses, length, isTable⟩ := has
  exact ⟨addresses, length, adds.object isTable⟩

/-- Another table may be written over, with as many addresses. -/
theorem withTable {table : ObjRef} {old addresses : List UInt64} {heap : Heap} (has : s.HasTable r n)
    (isTable : s.objects[table.index]? = some (.ofAddresses old))
    (length : addresses.length = old.length) : (s.withTable table addresses heap).HasTable r n := by
  by_cases same : table.index = r.index
  · obtain ⟨addresses', length', isTable'⟩ := has
    rw [← same, isTable] at isTable'
    have both := congrArg Array.size (Object.array.inj (Option.some.inj isTable')).2
    simp only [List.size_toArray, List.length_map] at both
    exact ⟨addresses, by omega, same ▸ table_withTable isTable⟩
  · obtain ⟨addresses', length', isTable'⟩ := has
    exact ⟨addresses', length', (Array.getElem?_setIfInBounds_ne same).trans isTable'⟩

/-- Reading back a pin leaves a table of addresses. -/
theorem readBack {p : Pin} (has : s.HasTable r n) (back : m.ReadBack p s s') : s'.HasTable r n := by
  cases back with
  | same => exact has
  | @box box t v v' source isBox =>
    obtain ⟨addresses, length, isTable⟩ := has
    refine ⟨addresses, length, (Array.getElem?_setIfInBounds_ne fun same => ?_).trans isTable⟩
    rw [same, isTable] at isBox
    cases isBox
  | @array array start size element items data read source isArray known length' decoded =>
    by_cases same : array.index = r.index
    · obtain ⟨addresses, length, isTable⟩ := has
      rw [same, isTable] at isArray
      cases isArray
      cases known
      have all := mapM_eq_ok_iff.mp decoded
      obtain ⟨values, rfl⟩ : ∃ values : List UInt64, read = values.map Value.ptr := by
        refine ⟨read.map fun v => v.toPointer?.getD 0, ?_⟩
        rw [List.map_map, List.map_congr_left (g := id), List.map_id]
        intro v hv
        obtain ⟨chunk, -, decodes⟩ := List.exists_left_of_forall₂ all hv
        obtain ⟨p, rfl⟩ := Module.decode_intPtr decodes
        rfl
      have count := all.length_eq
      simp only [Bytes.chunks, List.length_map, List.length_range, length', List.size_toArray] at count
      refine ⟨addresses.take start ++ values, ?_, ?_⟩
      · rw [List.length_append, List.length_take]
        omega
      · have inside := (Array.getElem?_eq_some_iff.mp isTable).1
        rw [← same] at inside
        rw [← same]
        refine (Array.getElem?_setIfInBounds_self_of_lt inside).trans ?_
        rw [Object.ofAddresses, List.map_append, List.map_take]
        congr 2
        rw [← Array.toList_inj]
        simp
    · obtain ⟨addresses, length, isTable⟩ := has
      exact ⟨addresses, length, (Array.getElem?_setIfInBounds_ne same).trans isTable⟩

theorem keeps_takeBackPins : Keeps X (HasTable · r n) m.takeBackPins :=
  looks_get.keeps.bind fun _ => keeps_forM fun p s has => .inr (has.readBack (m.readBack p s))

theorem keeps_refreshPins : Keeps X (HasTable · r n) m.refreshPins :=
  looks_get.keeps.bind fun _ => keeps_forM fun p => (looks_pinnedBytes p.source).keeps.bind fun _ =>
    (looks_access _ _).keeps.bind fun _ _ has => .inr (has.of_objects rfl)

theorem keeps_settle (outcome : Except NativeFault NativeValue) :
    Keeps X (HasTable · r n) (settle outcome) := by
  unfold settle
  split
  · exact keeps_pure _
  · exact fun s has => .inr (has.adds (.withObject s _))
  all_goals exact keeps_fatal _

/-- Whatever native code does, the tables stay tables. -/
theorem keeps_callIndirect (call : NativeCall) (address : UInt64) (site : CallSite)
    (args : List Value) : Keeps X (HasTable · r n) (m.callIndirect call address site args) := by
  refine (looks_lift _).keeps.bind fun natives => Keeps.bind ?_ fun outcome =>
    (keeps_settle outcome).bind fun result => (looks_lift _).keeps
  refine keeps_refreshPins.bind fun _ => Keeps.bind (fun s has => .inr (has.of_objects rfl))
    fun outcome => ?_
  exact keeps_takeBackPins.bind fun _ => keeps_pure outcome

end MachineState.HasTable

/-- There are tables, and a position in each of them is a number. -/
def MachineState.HasTables (s : MachineState) (rs : List ObjRef) : Prop :=
  ∀ r ∈ rs, ∃ n < 2 ^ 31, s.HasTable r n

namespace MachineState.HasTables

variable {m : Machine} {s s' : MachineState} {rs : List ObjRef}

theorem adds (has : s.HasTables rs) (adds : s.Adds s') : s'.HasTables rs := fun r mem => by
  obtain ⟨n, few, has⟩ := has r mem
  exact ⟨n, few, has.adds adds⟩

theorem callIndirect (has : s.HasTables rs) (call : NativeCall) (address : UInt64) (site : CallSite)
    (args : List Value) : (m.callIndirect call address site args s).2.HasTables rs := fun r mem => by
  obtain ⟨n, few, has⟩ := has r mem
  exact ⟨n, few, (HasTable.keeps_callIndirect call address site args).holds has⟩

end MachineState.HasTables

/-! ## Giving copies back -/

/-- Copies are given back from tables, from one table after the other, until a block cannot be freed. -/
inductive MachineState.GivesBack : MachineState → List ObjRef → Option MachineError → MachineState → Prop
  | nil (s : MachineState) : s.GivesBack [] none s
  | cons {s s' : MachineState} {r : ObjRef} {rs : List ObjRef} {addresses : List UInt64}
      {fault : Option MachineError} (isTable : s.objects[r.index]? = some (.ofAddresses addresses))
      (few : addresses.length < 2 ^ 31) (all : (s.native.heap.clear addresses).2.2 = none)
      (rest : (s.withTable r (s.native.heap.clear addresses).1
        (s.native.heap.clear addresses).2.1).GivesBack rs fault s') : s.GivesBack (r :: rs) fault s'
  | stops {s : MachineState} {r : ObjRef} {rs : List ObjRef} {addresses : List UInt64}
      {e : MachineError} (isTable : s.objects[r.index]? = some (.ofAddresses addresses))
      (few : addresses.length < 2 ^ 31) (fails : (s.native.heap.clear addresses).2.2 = some e) :
      s.GivesBack (r :: rs) (some e) (s.withTable r (s.native.heap.clear addresses).1
        (s.native.heap.clear addresses).2.1)

namespace MachineState.GivesBack

variable {s s' : MachineState} {rs : List ObjRef} {fault : Option MachineError}

/-- Only tables and memory change. -/
theorem eq (back : s.GivesBack rs fault s') : s' =
    { s with native := { s.native with heap := s'.native.heap }, objects := s'.objects } := by
  induction back with
  | nil => rfl
  | cons isTable few all rest ih => exact ih
  | stops isTable few fails => rfl

/-- From tables that are short enough copies can be given back. -/
theorem exists_of_hasTables (has : s.HasTables rs) : ∃ fault s', s.GivesBack rs fault s' := by
  induction rs generalizing s with
  | nil => exact ⟨none, s, .nil s⟩
  | cons r rs ih =>
    obtain ⟨⟨n, few, addresses, rfl, isTable⟩, tables⟩ := List.forall_mem_cons.mp has
    let cleared := s.native.heap.clear addresses
    cases all : cleared.2.2 with
    | some e => exact ⟨some e, _, .stops isTable few all⟩
    | none =>
      have kept : (s.withTable r cleared.1 cleared.2.1).HasTables rs := fun r' mem => by
        obtain ⟨n, few, has⟩ := tables r' mem
        exact ⟨n, few, has.withTable isTable (Heap.length_clear _ addresses)⟩
      obtain ⟨fault, s', rest⟩ := ih kept
      exact ⟨fault, s', .cons isTable few all rest⟩

end MachineState.GivesBack

end LateBind
