import LateBind.Proofs.Regions

/-! # What sequences of calls lead to

A sequence of calls is well bracketed when each try has one finally part and one end. What the
emitter makes of such a sequence, or of a beginning of one, is told without its state: the
instructions that were given, a `leave` or an `endfinally` where control comes to the end of a part,
the regions as they are closed, and a place for each label. -/

namespace LateBind

namespace Emitter

/-! ## Well bracketed calls -/

/-- What calls have led to. -/
structure Outline where
  instrs : List Instr
  /-- The closed regions, each with the label behind it. -/
  regions : List (Region × Label)
  /-- The number and the place of each label that has a place. -/
  marks : List (Nat × Nat)
  /-- How many labels there are. -/
  labels : Nat
  /-- Control comes to the next place. -/
  reachable : Bool

namespace Outline

def empty : Outline := ⟨[], [], [], 0, true⟩

def position (o : Outline) : Nat := o.instrs.length

/-- The next new label. -/
def next (o : Outline) : Label := ⟨UInt32.ofNat o.labels⟩

def define (o : Outline) : Outline := { o with labels := o.labels + 1 }

def emit (o : Outline) (i : Instr) : Outline :=
  { o with instrs := o.instrs ++ [i], reachable := o.reachable && i.falls }

def mark (o : Outline) (l : Label) : Outline :=
  { o with marks := o.marks ++ [(l.id.toNat, o.position)], reachable := true }

def Marked (o : Outline) (l : Label) : Prop := ∃ place, (l.id.toNat, place) ∈ o.marks

/-- Ends a part with an instruction, if control comes to the end. -/
def endPart (o : Outline) (i : Instr) : Outline := if o.reachable then o.emit i else o

/-- Ends the try part and starts the finally part of a region. -/
def startFinally (o : Outline) (exit : Label) : Outline :=
  { o.endPart (.leave exit) with reachable := true }

/-- Ends the finally part of a region, which is closed now. -/
def endFinally (o : Outline) (tryStart finallyStart : Nat) (exit : Label) : Outline :=
  let ended := o.endPart .endfinally
  let closed : Region := ⟨tryStart, finallyStart, finallyStart, ended.position⟩
  { ended with regions := ended.regions ++ [(closed, exit)] }

/-- Closes a region and places the label behind it. -/
def closeRegion (o : Outline) (tryStart finallyStart : Nat) (exit : Label) : Outline :=
  (o.endFinally tryStart finallyStart exit).mark exit

@[simp]
theorem endPart_labels (o : Outline) (i : Instr) : (o.endPart i).labels = o.labels := by
  unfold endPart
  split <;> rfl

@[simp]
theorem endPart_marks (o : Outline) (i : Instr) : (o.endPart i).marks = o.marks := by
  unfold endPart
  split <;> rfl

@[simp]
theorem endPart_regions (o : Outline) (i : Instr) : (o.endPart i).regions = o.regions := by
  unfold endPart
  split <;> rfl

@[simp]
theorem startFinally_regions (o : Outline) (exit : Label) :
    (o.startFinally exit).regions = o.regions := o.endPart_regions _

@[simp]
theorem closeRegion_regions (o : Outline) (tryStart finallyStart : Nat) (exit : Label) :
    (o.closeRegion tryStart finallyStart exit).regions = o.regions ++
      [(⟨tryStart, finallyStart, finallyStart, (o.endPart .endfinally).position⟩, exit)] := by
  simp [closeRegion, endFinally, mark]

@[simp]
theorem startFinally_marks (o : Outline) (exit : Label) : (o.startFinally exit).marks = o.marks :=
  o.endPart_marks _

@[simp]
theorem endFinally_labels (o : Outline) (tryStart finallyStart : Nat) (exit : Label) :
    (o.endFinally tryStart finallyStart exit).labels = o.labels := o.endPart_labels _

@[simp]
theorem endFinally_marks (o : Outline) (tryStart finallyStart : Nat) (exit : Label) :
    (o.endFinally tryStart finallyStart exit).marks = o.marks := o.endPart_marks _

@[simp]
theorem marked_endFinally {o : Outline} {tryStart finallyStart : Nat} {exit l : Label} :
    (o.endFinally tryStart finallyStart exit).Marked l ↔ o.Marked l := by
  rw [Marked, endFinally_marks, Marked]

end Outline

/-- Well bracketed calls lead from one outline to another. Each label is placed once, after it is
defined. -/
inductive Balanced : Outline → List Call → Outline → Prop
  | nil {o : Outline} : Balanced o [] o
  | defineLabel {o o' : Outline} {calls : List Call} (before : Balanced o calls o') :
      Balanced o (calls ++ [.defineLabel]) o'.define
  | markLabel {o o' : Outline} {calls : List Call} {l : Label} (before : Balanced o calls o')
      (defined : l.id.toNat < o'.labels) (unmarked : ¬o'.Marked l) :
      Balanced o (calls ++ [.markLabel l]) (o'.mark l)
  | declareLocal {o o' : Outline} {calls : List Call} {type : TypeRef} {pinned : Bool}
      (before : Balanced o calls o') : Balanced o (calls ++ [.declareLocal type pinned]) o'
  | instr {o o' : Outline} {calls : List Call} {i : Instr} (before : Balanced o calls o') :
      Balanced o (calls ++ [.instr i]) (o'.emit i)
  | region {o o₁ o₂ o₃ : Outline} {calls body handler : List Call} (before : Balanced o calls o₁)
      (tried : Balanced o₁.define body o₂) (handled : Balanced (o₂.startFinally o₁.next) handler o₃)
      (unmarked : ¬o₃.Marked o₁.next) :
      Balanced o (calls ++ .beginTry :: body ++ .beginFinally :: handler ++ [.endTry])
        (o₃.closeRegion o₁.position (o₂.startFinally o₁.next).position o₁.next)

/-- The beginning of well bracketed calls, with the regions that are open, the innermost first. -/
inductive Opens : List Call → Outline → List OpenRegion → Prop
  | outside {calls : List Call} {o : Outline} (balanced : Balanced .empty calls o) : Opens calls o []
  | inTry {calls body : List Call} {o₁ o₂ : Outline} {outer : List OpenRegion}
      (before : Opens calls o₁ outer) (tried : Balanced o₁.define body o₂) :
      Opens (calls ++ .beginTry :: body) o₂ (⟨o₁.position, none, o₁.next⟩ :: outer)
  | inFinally {calls body handler : List Call} {o₁ o₂ o₃ : Outline} {outer : List OpenRegion}
      (before : Opens calls o₁ outer) (tried : Balanced o₁.define body o₂)
      (handled : Balanced (o₂.startFinally o₁.next) handler o₃) :
      Opens (calls ++ .beginTry :: body ++ .beginFinally :: handler) o₃
        (⟨o₁.position, some (o₂.startFinally o₁.next).position, o₁.next⟩ :: outer)

variable {e : Emitter} {o o' : Outline} {opened outer : List OpenRegion} {calls : List Call}
  {i : Instr} {l : Label}

/-! ## What the emitter does with them -/

/-- The emitter is where an outline says. -/
structure Tracks (e : Emitter) (o : Outline) (opened : List OpenRegion) : Prop where
  instrs : e.instrs.toList = o.instrs
  regions : e.regions.toList = o.regions.map Prod.fst
  openRegions : e.openRegions = opened
  labels : e.labels.size = o.labels
  marks : ∀ n place, e.places[n]? = some (some place) ↔ (n, place) ∈ o.marks
  reachable : e.reachable = o.reachable
  exits : ∀ r ∈ opened, r.exit.id.toNat < o.labels

namespace Tracks

theorem empty : Emitter.empty.Tracks .empty [] where
  instrs := rfl
  regions := rfl
  openRegions := rfl
  labels := rfl
  marks := by simp [places, Emitter.empty, Outline.empty]
  reachable := rfl
  exits := nofun

theorem position (tracks : e.Tracks o opened) : e.position = o.position := by
  rw [Emitter.position, Outline.position, ← tracks.instrs, Array.length_toList]

theorem length_places (tracks : e.Tracks o opened) : e.places.length = o.labels := by
  rw [places, List.length_map, Array.length_toList, tracks.labels]

theorem newLabel_fst (tracks : e.Tracks o opened) : e.newLabel.1 = o.next := by
  rw [newLabel, tracks.labels]
  rfl

theorem push (tracks : e.Tracks o opened) (i : Instr) : (e.push i).Tracks (o.emit i) opened := by
  have puts := puts_push e i
  constructor
  case instrs => rw [puts.instrs, Array.toList_push, tracks.instrs, Outline.emit]
  case regions => rw [puts.regions, tracks.regions, Outline.emit]
  case openRegions => rw [puts.openRegions, tracks.openRegions]
  case labels =>
    have size := congrArg List.length puts.places
    rw [tracks.length_places, places, List.length_map, Array.length_toList] at size
    exact size
  case marks =>
    rw [puts.places]
    exact tracks.marks
  case reachable => rw [puts.reachable, tracks.reachable, Outline.emit]
  case exits => exact tracks.exits

theorem endPart (tracks : e.Tracks o opened) (i : Instr) :
    (if e.reachable then e.push i else e).Tracks (o.endPart i) opened := by
  rw [Outline.endPart, tracks.reachable]
  split
  · exact tracks.push i
  · exact tracks

theorem newLabel (tracks : e.Tracks o opened) : e.newLabel.2.Tracks o.define opened where
  instrs := tracks.instrs
  regions := tracks.regions
  openRegions := tracks.openRegions
  labels := by rw [Emitter.newLabel, Array.size_push, tracks.labels, Outline.define]
  marks n place := by
    rw [Outline.define, ← tracks.marks n place, places, Emitter.newLabel, Array.toList_push,
      List.map_append, List.map_singleton, List.getElem?_append, List.getElem?_singleton, places]
    split
    · exact Iff.rfl
    · next high =>
      rw [List.getElem?_eq_none (Nat.le_of_not_lt high)]
      split <;> simp
  reachable := tracks.reachable
  exits r hr := Nat.lt_succ_of_lt (tracks.exits r hr)

theorem newLocal (tracks : e.Tracks o opened) (type : TypeRef) (pinned : Bool) :
    (e.newLocal type pinned).2.Tracks o opened :=
  ⟨tracks.instrs, tracks.regions, tracks.openRegions, tracks.labels, tracks.marks, tracks.reachable,
    tracks.exits⟩

end Tracks

/-! ### Faults of instructions -/

theorem errors_push_of_zero {i : Instr} (free : i.stackEffect.1 = 0) :
    (if e.reachable then e.push i else e).errors = e.errors := by
  split
  · rw [(puts_push e i).errors, free, if_neg (UInt16.not_lt.mpr (UInt16.zero_le))]
  · rfl

/-! ### Labels that are placed -/

theorem getElem?_places (e : Emitter) (n : Nat) :
    e.places[n]? = e.labels[n]?.map LabelState.position := by
  rw [places, List.getElem?_map, Array.getElem?_toList]

theorem placeLabel_marked {place : Nat} (marked : e.places[l.id.toNat]? = some (some place)) :
    e.placeLabel l = e.fault (.labelMarkedTwice l) := by
  rw [getElem?_places] at marked
  obtain ⟨state, found, position⟩ := Option.map_eq_some_iff.mp marked
  simp [Emitter.placeLabel, found, position]

theorem placeLabel_unmarked (unmarked : e.places[l.id.toNat]? = some none) :
    ∃ labels depth, e.placeLabel l = { e with labels, depth, reachable := true } ∧
      labels.toList.map LabelState.position = e.places.set l.id.toNat (some e.position) := by
  rw [getElem?_places] at unmarked
  obtain ⟨state, found, position⟩ := Option.map_eq_some_iff.mp unmarked
  refine ⟨e.labels.setIfInBounds l.id.toNat { state with position := some e.position },
    if e.reachable then e.depth else state.depth.getD 0, ?_, ?_⟩
  · cases reachable : e.reachable <;> simp [Emitter.placeLabel, found, position, reachable]
  · rw [Array.toList_setIfInBounds, List.map_set, places]

namespace Tracks

/-- A label is defined without a place, or it has one. -/
theorem places_label (tracks : e.Tracks o opened) {n : Nat} (defined : n < o.labels) :
    ((¬∃ place, (n, place) ∈ o.marks) ∧ e.places[n]? = some none) ∨
      ∃ place, e.places[n]? = some (some place) ∧ (n, place) ∈ o.marks := by
  rw [← tracks.length_places] at defined
  have found := List.getElem?_eq_getElem defined
  cases place : e.places[n] with
  | none =>
    rw [place] at found
    refine .inl ⟨fun ⟨place, mem⟩ => ?_, found⟩
    rw [(tracks.marks _ _).mpr mem] at found
    cases found
  | some place' =>
    rw [place] at found
    exact .inr ⟨place', found, (tracks.marks _ _).mp found⟩

theorem placeLabel (tracks : e.Tracks o opened) (defined : l.id.toNat < o.labels)
    (unmarked : ¬o.Marked l) : (e.placeLabel l).Tracks (o.mark l) opened := by
  have none : e.places[l.id.toNat]? = some none := by
    rcases tracks.places_label defined with ⟨-, none⟩ | ⟨place, -, mem⟩
    · exact none
    · exact absurd ⟨place, mem⟩ unmarked
  obtain ⟨labels, depth, eq, places⟩ := placeLabel_unmarked none
  have size : labels.size = o.labels := by
    have length := congrArg List.length places
    rwa [List.length_map, Array.length_toList, List.length_set, tracks.length_places] at length
  rw [eq]
  refine ⟨tracks.instrs, tracks.regions, tracks.openRegions, size, fun n place => ?_, rfl,
    tracks.exits⟩
  change (labels.toList.map LabelState.position)[n]? = _ ↔ (n, place) ∈ o.marks ++ _
  rw [places, List.getElem?_set, List.mem_append, List.mem_singleton, Prod.mk.injEq,
    ← tracks.marks n place]
  by_cases same : l.id.toNat = n
  · subst same
    rw [if_pos rfl, if_pos (by rw [tracks.length_places]; exact defined), none, tracks.position]
    simp [eq_comm]
  · rw [if_neg same]
    simp [Ne.symm same]

/-! ### Regions -/

theorem fault (tracks : e.Tracks o opened) (error : EmitError) : (e.fault error).Tracks o opened :=
  ⟨tracks.instrs, tracks.regions, tracks.openRegions, tracks.labels, tracks.marks, tracks.reachable,
    tracks.exits⟩

theorem withRegions (tracks : e.Tracks o opened) {opened' : List OpenRegion}
    (exits : ∀ r ∈ opened', r.exit.id.toNat < o.labels) :
    Tracks { e with openRegions := opened' } o opened' :=
  ⟨tracks.instrs, tracks.regions, rfl, tracks.labels, tracks.marks, tracks.reachable, exits⟩

theorem next_lt_define (o : Outline) : o.next.id.toNat < o.define.labels := by
  have low : o.next.id.toNat ≤ o.labels := by
    rw [Outline.next, UInt32.toNat_ofNat']
    exact Nat.mod_le _ _
  exact Nat.lt_succ_of_le low

theorem openTry (tracks : e.Tracks o opened) :
    e.openTry.2.Tracks o.define (⟨o.position, none, o.next⟩ :: opened) := by
  have opens {e : Emitter} (tracks : e.Tracks o opened) : Tracks { e.newLabel.2 with
      openRegions := ⟨e.position, none, e.newLabel.1⟩ :: e.openRegions } o.define
      (⟨o.position, none, o.next⟩ :: opened) := by
    rw [tracks.position, tracks.newLabel_fst, tracks.openRegions]
    exact tracks.newLabel.withRegions
      (List.forall_mem_cons.mpr ⟨next_lt_define o, tracks.newLabel.exits⟩)
  unfold Emitter.openTry
  dsimp only
  split
  · exact opens (tracks.fault _)
  · exact opens tracks

theorem openFinally {tryStart : Nat} {exit : Label}
    (tracks : e.Tracks o (⟨tryStart, none, exit⟩ :: outer)) :
    e.openFinally.Tracks (o.startFinally exit)
      (⟨tryStart, some (o.startFinally exit).position, exit⟩ :: outer) := by
  have ended := tracks.endPart (.leave exit)
  unfold Emitter.openFinally
  rw [tracks.openRegions]
  dsimp only
  rw [if_neg (by simp), ended.position]
  exact ⟨ended.instrs, ended.regions, rfl, ended.labels, ended.marks, rfl,
    List.forall_mem_cons.mpr (List.forall_mem_cons.mp ended.exits)⟩

/-- Closing a region ends its finally part without a fault and places its label. -/
theorem closed {tryStart finallyStart : Nat} {exit : Label}
    (tracks : e.Tracks o (⟨tryStart, some finallyStart, exit⟩ :: outer)) :
    ∃ e', e.closeTry = Emitter.placeLabel e' exit ∧
      e'.Tracks (o.endFinally tryStart finallyStart exit) outer ∧ e'.errors = e.errors := by
  obtain ⟨-, exits⟩ := List.forall_mem_cons.mp tracks.exits
  have ended := (tracks.withRegions exits).endPart .endfinally
  have errors := errors_push_of_zero (e := { e with openRegions := outer }) (i := .endfinally) rfl
  unfold Emitter.closeTry
  rw [tracks.openRegions]
  dsimp only at ended errors ⊢
  refine ⟨_, rfl, ⟨ended.instrs, ?_, ended.openRegions, ended.labels, ended.marks, ended.reachable,
    ended.exits⟩, errors⟩
  rw [Array.toList_push, ended.regions, ended.position, Outline.endFinally, List.map_append]
  rfl

theorem closeTry {tryStart finallyStart : Nat} {exit : Label}
    (tracks : e.Tracks o (⟨tryStart, some finallyStart, exit⟩ :: outer))
    (unmarked : ¬o.Marked exit) :
    e.closeTry.Tracks (o.closeRegion tryStart finallyStart exit) outer := by
  obtain ⟨exit_lt, -⟩ := List.forall_mem_cons.mp tracks.exits
  obtain ⟨e', closes, closed, -⟩ := tracks.closed
  rw [closes]
  exact closed.placeLabel (by simpa using exit_lt) (by simpa using unmarked)

end Tracks

/-! ### Sequences -/

/-- The emitter after more calls. -/
def run (e : Emitter) (calls : List Call) : Emitter := calls.foldl (fun e call => call.apply e) e

theorem run_append (e : Emitter) (calls calls' : List Call) :
    e.run (calls ++ calls') = (e.run calls).run calls' := List.foldl_append

@[simp]
theorem run_nil (e : Emitter) : e.run [] = e := rfl

@[simp]
theorem run_cons (e : Emitter) (call : Call) (calls : List Call) :
    e.run (call :: calls) = (call.apply e).run calls := rfl

theorem ofCalls_append (calls calls' : List Call) :
    ofCalls (calls ++ calls') = (ofCalls calls).run calls' := run_append empty calls calls'

theorem Balanced.tracks (balanced : Balanced o calls o') (tracks : e.Tracks o opened) :
    (e.run calls).Tracks o' opened := by
  induction balanced generalizing e opened with
  | nil => exact tracks
  | defineLabel _ ih =>
    rw [run_append]
    exact (ih tracks).newLabel
  | markLabel _ defined unmarked ih =>
    rw [run_append]
    exact (ih tracks).placeLabel defined unmarked
  | declareLocal _ ih =>
    rw [run_append]
    exact (ih tracks).newLocal _ _
  | instr _ ih =>
    rw [run_append]
    exact (ih tracks).push _
  | region _ _ _ unmarked before tried handled =>
    rw [run_append, run_append, run_append, run_cons, run_cons]
    exact (handled (tried (before tracks).openTry).openFinally).closeTry unmarked

theorem Opens.tracks (opens : Opens calls o opened) : (ofCalls calls).Tracks o opened := by
  induction opens with
  | outside balanced => exact balanced.tracks .empty
  | inTry _ tried before =>
    rw [ofCalls_append, run_cons]
    exact tried.tracks before.openTry
  | inFinally _ tried handled before =>
    rw [ofCalls_append, ofCalls_append, run_cons, run_cons]
    exact handled.tracks (tried.tracks before.openTry).openFinally

/-- Each label is placed once. -/
def Outline.Distinct (o : Outline) : Prop := (o.marks.map Prod.fst).Nodup

theorem Outline.Distinct.mark (distinct : o.Distinct) (unmarked : ¬o.Marked l) :
    (o.mark l).Distinct := by
  rw [Distinct, Outline.mark, List.map_append, List.nodup_append]
  refine ⟨distinct, List.nodup_singleton _, fun n hn n' hn' same => unmarked ?_⟩
  obtain ⟨mark, mem, rfl⟩ := List.mem_map.mp hn
  have label : n' = l.id.toNat := List.mem_singleton.mp hn'
  refine ⟨mark.2, ?_⟩
  rw [← label, ← same]
  exact mem

theorem Balanced.distinct (balanced : Balanced o calls o') (distinct : o.Distinct) : o'.Distinct := by
  induction balanced with
  | nil => exact distinct
  | defineLabel _ ih => exact ih distinct
  | markLabel _ _ unmarked ih => exact (ih distinct).mark unmarked
  | declareLocal _ ih => exact ih distinct
  | instr _ ih => exact ih distinct
  | region _ _ _ unmarked before tried handled =>
    have split := tried (before distinct)
    have closed := handled (by simpa [Outline.Distinct] using split)
    exact Outline.Distinct.mark (by simpa [Outline.Distinct] using closed) (by simpa using unmarked)

/-! ## Going on -/

/-- More well bracketed calls in the innermost part. -/
theorem Opens.append {more : List Call} (opens : Opens calls o opened)
    (adds : ∀ {start : Outline} {calls : List Call}, Balanced start calls o →
      Balanced start (calls ++ more) o') : Opens (calls ++ more) o' opened := by
  cases opens with
  | outside balanced => exact .outside (adds balanced)
  | inTry before tried =>
    rw [List.append_assoc, List.cons_append]
    exact .inTry before (adds tried)
  | inFinally before tried handled =>
    rw [List.append_assoc, List.cons_append]
    exact .inFinally before tried (adds handled)

end Emitter

end LateBind
