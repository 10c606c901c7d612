import Mathlib.Data.List.Nodup
import Mathlib.Data.List.Count

/-! `buffer::buffer_item` and its `buffer::parameters` (`buffer_item.hpp`, `buffer_item.cpp`): what an
item owns on the heap, and how its moves and its destructor pass it on.

The constructor copies the data into a new block when `data != 0 && size != 0`, and the item owns the
parameter list when `isAllocated`; the destructor deletes the data block if `_data` is not null, then
the list if `_isAllocated` and `_parameters` is not null. The move constructor and the move
assignment take the source's pointers, sizes and flag and null those of the source; the assignment
does not delete what its target held, and for `x = std::move(x)` the nulling comes last.

Heap blocks are numbered in allocation order, and a list the item owns is one the caller allocated
just before the constructor. A list it does not own is never deleted by it, so its pointer is left
out. The program's items are slots, each empty (not constructed, or destroyed) or live, and each
member works on live slots, as C++ object lifetimes have it. -/

namespace ArmishFireplace.Buffer

/-- `buffer::parameters`: the list the item owns (or null), `_size`, `_isAllocated`. -/
structure Parameters where
  parameters : Option Nat
  size : Nat
  isAllocated : Bool
  deriving DecidableEq, Repr

/-- `buffer::buffer_item`: `_data`, `_size`, `_parameters`. -/
structure BufferItem where
  data : Option Nat
  size : Nat
  parameters : Parameters
  deriving DecidableEq, Repr

namespace BufferItem

/-- A moved-from item: both moves null the pointers and sizes and clear `_isAllocated`. -/
def moved : BufferItem := ⟨none, 0, ⟨none, 0, false⟩⟩

/-- The blocks `~buffer_item` deletes, in order: `_data` unless null, then the list when
    `_isAllocated` and not null. -/
def owned (x : BufferItem) : List Nat :=
  x.data.toList ++ if x.parameters.isAllocated then x.parameters.parameters.toList else []

@[simp] theorem owned_moved : moved.owned = [] := rfl

end BufferItem

/-- The heap and the program's items: the allocated blocks, the next block number, each slot's item
    if it is live, and whether a `delete[]` was given a block that is not allocated. -/
structure Items where
  allocated : List Nat
  next : Nat
  slots : List (Option BufferItem)
  fault : Bool
  deriving DecidableEq, Repr

/-- What the program does with its items. -/
inductive ItemOp where
  /-- `buffer_item(data, size, parameterList, count, isAllocated)` in the empty slot `i`: `hasData`
      is `data != 0`, `hasList` is `parameterList != 0`. -/
  | construct (i : Nat) (hasData : Bool) (size : Nat) (hasList : Bool) (count : Nat) (isAllocated : Bool)
  /-- `buffer_item(std::move(item j))` in the empty slot `i`. -/
  | moveConstruct (i j : Nat)
  /-- `item i = std::move(item j)`. -/
  | moveAssign (i j : Nat)
  /-- `~buffer_item` of item `i`. -/
  | destroy (i : Nat)
  deriving DecidableEq, Repr

namespace Items

/-- `new[]` when `c`: the next block, allocated. -/
def allocIf (s : Items) (c : Bool) : Option Nat × Items :=
  if c then (some s.next, { s with allocated := s.allocated ++ [s.next], next := s.next + 1 })
  else (none, s)

@[simp] theorem allocIf_slots (s : Items) (c : Bool) : (s.allocIf c).2.slots = s.slots := by
  cases c <;> rfl

@[simp] theorem allocIf_fault (s : Items) (c : Bool) : (s.allocIf c).2.fault = s.fault := by
  cases c <;> rfl

/-- `delete[]` of block `b`. -/
def free (s : Items) (b : Nat) : Items :=
  if b ∈ s.allocated then { s with allocated := s.allocated.erase b } else { s with fault := true }

/-- One operation; `none` if its slots are not as C++ lifetimes require. -/
def step (s : Items) : ItemOp → Option Items
  | .construct i hasData size hasList count isAllocated =>
    match s.slots[i]? with
    | some none =>
      let l := s.allocIf (isAllocated && hasList)
      let d := l.2.allocIf (hasData && size != 0)
      some { d.2 with slots := d.2.slots.set i (some ⟨d.1, size, ⟨l.1, count, isAllocated⟩⟩) }
    | _ => none
  | .moveConstruct i j =>
    match s.slots[i]?, s.slots[j]? with
    | some none, some (some x) => some { s with slots := (s.slots.set i (some x)).set j (some .moved) }
    | _, _ => none
  | .moveAssign i j =>
    match s.slots[i]?, s.slots[j]? with
    | some (some _), some (some x) => some { s with slots := (s.slots.set i (some x)).set j (some .moved) }
    | _, _ => none
  | .destroy i =>
    match s.slots[i]? with
    | some (some x) => some { x.owned.foldl free s with slots := s.slots.set i none }
    | _ => none

/-- Run the operations of a list in order. -/
def run : Items → List ItemOp → Option Items
  | s, [] => some s
  | s, op :: ops => (s.step op).bind (run · ops)

/-- A program's `n` item variables before any is constructed. -/
def init (n : Nat) : Items := ⟨[], 0, List.replicate n none, false⟩

/-! ### Who holds which block -/

/-- The blocks a slot's item would delete. -/
def ownedOf : Option BufferItem → List Nat
  | none => []
  | some x => x.owned

@[simp] theorem ownedOf_none : ownedOf none = [] := rfl

@[simp] theorem ownedOf_some (x : BufferItem) : ownedOf (some x) = x.owned := rfl

/-- The blocks the live items hold, slot by slot. -/
def held (slots : List (Option BufferItem)) : List Nat := slots.flatMap ownedOf

@[simp] theorem held_replicate_none (n : Nat) : held (List.replicate n none) = [] := by
  simp [held]

/-- Replacing a slot's item changes how often each block is held by the two items' blocks. -/
theorem count_held_set {l : List (Option BufferItem)} {i : Nat} {o : Option BufferItem}
    (hi : l[i]? = some o) (v : Option BufferItem) (b : Nat) :
    (held (l.set i v)).count b + (ownedOf o).count b = (held l).count b + (ownedOf v).count b := by
  induction l generalizing i with
  | nil => simp at hi
  | cons a l ih =>
    cases i with
    | zero =>
      simp only [List.getElem?_cons_zero, Option.some.injEq] at hi
      subst hi
      simp only [held, List.set_cons_zero, List.flatMap_cons, List.count_append]
      omega
    | succ i =>
      have := ih (by simpa using hi)
      simp only [held, List.set_cons_succ, List.flatMap_cons, List.count_append] at this ⊢
      omega

/-- A move from slot `j` into slot `i`, whatever `i` held: `i` gets `j`'s item, then `j` is nulled. -/
theorem count_held_move {l : List (Option BufferItem)} {i j : Nat} {o : Option BufferItem} {x : BufferItem}
    (hi : l[i]? = some o) (hj : l[j]? = some (some x)) (b : Nat) :
    (held ((l.set i (some x)).set j (some .moved))).count b + (ownedOf o).count b = (held l).count b := by
  have h₁ := count_held_set hi (some x) b
  have hj' : (l.set i (some x))[j]? = some (some x) := by
    rw [List.getElem?_set]
    split
    · subst_vars; simp [(List.getElem?_eq_some_iff.mp hi).1]
    · exact hj
  have h₂ := count_held_set hj' (some .moved) b
  simp only [ownedOf_some, BufferItem.owned_moved, List.count_nil] at h₁ h₂
  omega

/-- Deleting distinct allocated blocks one after the other: no invalid delete, and exactly those
    blocks leave the allocated ones. -/
theorem foldl_free {l : List Nat} (hl : l.Nodup) : ∀ {s : Items}, s.allocated.Nodup →
    (∀ b ∈ l, b ∈ s.allocated) →
    (l.foldl free s).fault = s.fault ∧ (l.foldl free s).next = s.next ∧
      (l.foldl free s).allocated.Nodup ∧ ∀ b, b ∈ (l.foldl free s).allocated ↔ b ∈ s.allocated ∧ b ∉ l := by
  induction l with
  | nil => intro s hn _; exact ⟨rfl, rfl, hn, by simp⟩
  | cons c l ih =>
    intro s hn ha
    rw [List.nodup_cons] at hl
    have hc : free s c = { s with allocated := s.allocated.erase c } := by
      simp [free, ha c (List.mem_cons_self c l)]
    have hmem : ∀ b, b ∈ s.allocated.erase c ↔ b ≠ c ∧ b ∈ s.allocated := fun b => hn.mem_erase_iff
    obtain ⟨h₁, h₂, h₃, h₄⟩ := @ih hl.2 { s with allocated := s.allocated.erase c } (hn.erase c) fun b hb =>
      (hmem b).mpr ⟨fun e => hl.1 (e ▸ hb), ha b (List.mem_cons_of_mem c hb)⟩
    rw [List.foldl_cons, hc]
    refine ⟨h₁, h₂, h₃, fun b => ?_⟩
    rw [h₄, hmem, List.mem_cons]
    tauto

/-! ### What each member does to the heap -/

/-- The constructor: the new item holds fresh blocks, the list's and then the data's, which are
    added to the allocated ones. -/
theorem step_construct {s s' : Items} {i : Nat} {hasData : Bool} {size : Nat} {hasList : Bool}
    {count : Nat} {isAllocated : Bool} (h : s.step (.construct i hasData size hasList count isAllocated) = some s') :
    ∃ z : BufferItem, s.slots[i]? = some none ∧ s'.slots = s.slots.set i (some z) ∧ s'.fault = s.fault ∧
      s.next ≤ s'.next ∧ s'.allocated.Perm (s.allocated ++ z.owned) ∧ z.owned.Nodup ∧
      ∀ b ∈ z.owned, s.next ≤ b ∧ b < s'.next := by
  simp only [step] at h
  split at h <;> try cases h
  refine ⟨⟨((s.allocIf (isAllocated && hasList)).2.allocIf (hasData && size != 0)).1, size,
    ⟨(s.allocIf (isAllocated && hasList)).1, count, isAllocated⟩⟩, ‹_›, by simp, by simp, ?_⟩
  cases isAllocated <;> cases hasList <;> cases hasData <;> by_cases hz : size = 0 <;>
    simp [allocIf, hz, BufferItem.owned, List.perm_append_left_iff, List.Perm.swap, Nat.add_assoc]

/-- Both moves: slot `i`, empty for the constructor and live for the assignment, gets slot `j`'s item,
    then slot `j` is nulled; the heap is untouched. -/
theorem step_move {s s' : Items} {op : ItemOp} {i j : Nat}
    (hop : op = .moveConstruct i j ∨ op = .moveAssign i j) (h : s.step op = some s') :
    ∃ o x, s.slots[i]? = some o ∧ s.slots[j]? = some (some x) ∧
      (op = .moveConstruct i j → o = none) ∧ (op = .moveAssign i j → o.isSome) ∧
      s' = { s with slots := (s.slots.set i (some x)).set j (some .moved) } := by
  rcases hop with rfl | rfl <;> simp only [step] at h <;> split at h <;> try cases h
  · exact ⟨none, _, ‹_›, ‹_›, fun _ => rfl, by simp, rfl⟩
  · exact ⟨some _, _, ‹_›, ‹_›, by simp, fun _ => rfl, rfl⟩

/-- The destructor deletes the item's blocks and empties its slot. -/
theorem step_destroy {s s' : Items} {i : Nat} (h : s.step (.destroy i) = some s') :
    ∃ x, s.slots[i]? = some (some x) ∧ s' = { x.owned.foldl free s with slots := s.slots.set i none } := by
  simp only [step] at h
  split at h <;> try cases h
  exact ⟨_, ‹_›, rfl⟩

/-! ### No double delete -/

/-- Every block a live item holds is allocated, and held by that item only, and once; the allocated
    blocks are distinct and numbered below `next`; no `delete[]` has gone wrong. -/
structure Inv (s : Items) : Prop where
  noFault : s.fault = false
  allocatedNodup : s.allocated.Nodup
  belowNext : ∀ b ∈ s.allocated, b < s.next
  heldNodup : (held s.slots).Nodup
  heldAllocated : ∀ b ∈ held s.slots, b ∈ s.allocated

theorem Inv.init (n : Nat) : Inv (init n) :=
  ⟨rfl, List.nodup_nil, by simp [Items.init], by simp [Items.init], by simp [Items.init]⟩

theorem Inv.count_le {s : Items} (hi : Inv s) (b : Nat) : (held s.slots).count b ≤ 1 :=
  List.nodup_iff_count_le_one.mp hi.heldNodup b

theorem Inv.mem_allocated {s : Items} (hi : Inv s) {b : Nat} (hb : 0 < (held s.slots).count b) :
    b ∈ s.allocated :=
  hi.heldAllocated b (List.count_pos_iff.mp hb)

/-- What a live item holds, it holds alone: its blocks are distinct and allocated, and emptying its
    slot takes exactly them out of the held ones. -/
theorem Inv.slot {s : Items} (hi : Inv s) {i : Nat} {x : BufferItem} (hix : s.slots[i]? = some (some x)) :
    x.owned.Nodup ∧ (∀ b ∈ x.owned, b ∈ s.allocated) ∧
      ∀ b, (held (s.slots.set i none)).count b + x.owned.count b = (held s.slots).count b := by
  have hcount : ∀ b, (held (s.slots.set i none)).count b + x.owned.count b = (held s.slots).count b :=
    fun b => by simpa using count_held_set hix none b
  refine ⟨List.nodup_iff_count_le_one.mpr fun b => ?_, fun b hb => hi.mem_allocated ?_, hcount⟩
  · have := hcount b; have := hi.count_le b; omega
  · have := hcount b; have := List.count_pos_iff.mpr hb; omega

/-- Slots that hold each block at most as often as the current ones (`k b` times less) keep the
    held blocks distinct and allocated. -/
theorem Inv.held_of_count_add {s : Items} (hi : Inv s) {l : List (Option BufferItem)} {k : Nat → Nat}
    (h : ∀ b, (held l).count b + k b = (held s.slots).count b) :
    (held l).Nodup ∧ ∀ b ∈ held l, b ∈ s.allocated :=
  ⟨List.nodup_iff_count_le_one.mpr fun b => by have := h b; have := hi.count_le b; omega,
    fun b hb => hi.mem_allocated (by have := h b; have := List.count_pos_iff.mpr hb; omega)⟩

theorem Inv.step {s s' : Items} {op : ItemOp} (hi : Inv s) (h : s.step op = some s') : Inv s' := by
  cases op with
  | construct i hasData size hasList count isAllocated =>
    obtain ⟨z, hi0, hsl, hf, hn, hp, hzn, hz⟩ := step_construct h
    -- The new blocks are fresh: neither allocated nor held before.
    have fresh : ∀ b ∈ z.owned, (held s.slots).count b = 0 := fun b hb =>
      List.count_eq_zero.mpr fun hb' => by
        have := hi.belowNext b (hi.heldAllocated b hb'); have := (hz b hb).1; omega
    have hcount : ∀ b, (held s'.slots).count b = (held s.slots).count b + z.owned.count b := fun b => by
      have := count_held_set hi0 (some z) b
      simp only [ownedOf_none, ownedOf_some, List.count_nil] at this
      rw [hsl]; omega
    refine ⟨hf ▸ hi.noFault, hp.nodup_iff.mpr (List.nodup_append.mpr ⟨hi.allocatedNodup, hzn, ?_⟩),
      fun b hb => ?_, List.nodup_iff_count_le_one.mpr fun b => ?_, fun b hb => ?_⟩
    · intro b hb hb'
      have := hi.belowNext b hb; have := (hz b hb').1; omega
    · rcases List.mem_append.mp (hp.mem_iff.mp hb) with hb | hb
      · have := hi.belowNext b hb; omega
      · exact (hz b hb).2
    · by_cases hb : b ∈ z.owned
      · have := List.nodup_iff_count_le_one.mp hzn b; rw [hcount, fresh b hb]; omega
      · rw [hcount, List.count_eq_zero.mpr hb]; exact hi.count_le b
    · rw [hp.mem_iff, List.mem_append]
      have := List.count_pos_iff.mpr hb
      rw [hcount] at this
      by_cases hb' : b ∈ z.owned
      · exact .inr hb'
      · rw [List.count_eq_zero.mpr hb'] at this; exact .inl (hi.mem_allocated (by omega))
  | moveConstruct i j | moveAssign i j =>
    obtain ⟨o, x, hio, hjx, -, -, rfl⟩ := step_move (by first | exact .inl rfl | exact .inr rfl) h
    obtain ⟨hnd, ha⟩ := hi.held_of_count_add (count_held_move hio hjx)
    exact ⟨hi.noFault, hi.allocatedNodup, hi.belowNext, hnd, ha⟩
  | destroy i =>
    obtain ⟨x, hix, rfl⟩ := step_destroy h
    obtain ⟨hxn, hxa, hcount⟩ := hi.slot hix
    obtain ⟨hf, hn, hnd, hmem⟩ := foldl_free hxn hi.allocatedNodup hxa
    obtain ⟨hhn, ha⟩ := hi.held_of_count_add hcount
    refine ⟨hf.trans hi.noFault, hnd, fun b hb => hn ▸ hi.belowNext b ((hmem b).mp hb).1, hhn,
      fun b hb => (hmem b).mpr ⟨ha b hb, fun hx => ?_⟩⟩
    -- A block of the destroyed item was held by it alone.
    dsimp only at hb
    have := hcount b; have := hi.count_le b
    have := List.count_pos_iff.mpr hb; have := List.count_pos_iff.mpr hx; omega

theorem Inv.run {s s' : Items} {ops : List ItemOp} (hi : Inv s) (h : s.run ops = some s') : Inv s' := by
  induction ops generalizing s with
  | nil => cases h; exact hi
  | cons op ops ih =>
    obtain ⟨u, hu, h⟩ := Option.bind_eq_some.mp h
    exact ih (hi.step hu) h

/-- Whatever a program does with its items: no `delete[]` gets a block that is not allocated, no block
    is held twice, and every block a live item holds is allocated. -/
theorem item_moves_never_double_free (n : Nat) (ops : List ItemOp) {s : Items}
    (h : (init n).run ops = some s) :
    s.fault = false ∧ (held s.slots).Nodup ∧ ∀ b ∈ held s.slots, b ∈ s.allocated :=
  have hi := (Inv.init n).run h
  ⟨hi.noFault, hi.heldNodup, hi.heldAllocated⟩

/-- Two items, one with data and one also owning a parameter list; the second is move-assigned onto
    the first, then both are destroyed. -/
def overwriteTrace : List ItemOp :=
  [.construct 0 true 4 false 0 false, .construct 1 true 4 true 1 true, .moveAssign 0 1, .destroy 1,
    .destroy 0]

theorem item_moves_never_double_free_overwrite :
    ∃ s, (init 2).run overwriteTrace = some s ∧
      s.fault = false ∧ (held s.slots).Nodup ∧ ∀ b ∈ held s.slots, b ∈ s.allocated :=
  ⟨_, rfl, item_moves_never_double_free 2 overwriteTrace rfl⟩

/-! ### Leaks -/

/-- Block `b` is leaked: allocated, and held by no live item, so no destructor deletes it. -/
def Leaked (s : Items) (b : Nat) : Prop := b ∈ s.allocated ∧ b ∉ held s.slots

/-- Only a move assignment leaks, and it leaks exactly what its target held. -/
theorem Inv.leaked_step {s s' : Items} {op : ItemOp} (hi : Inv s) (h : s.step op = some s') (b : Nat) :
    Leaked s' b ↔ Leaked s b ∨ ∃ i j d, op = .moveAssign i j ∧ s.slots[i]? = some (some d) ∧ b ∈ d.owned := by
  have hle := hi.count_le b
  simp only [Leaked, ← List.count_eq_zero]
  cases op with
  | construct i hasData size hasList count isAllocated =>
    obtain ⟨z, hi0, hsl, -, -, hp, -, hz⟩ := step_construct h
    have hcount := count_held_set hi0 (some z) b
    simp only [ownedOf_none, ownedOf_some, List.count_nil, ← hsl] at hcount
    simp only [hp.mem_iff, List.mem_append, reduceCtorEq, false_and, exists_false, or_false]
    by_cases hb : b ∈ z.owned
    · have hpos := List.count_pos_iff.mpr hb
      have hna : b ∉ s.allocated := fun h' => by have := hi.belowNext b h'; have := (hz b hb).1; omega
      simp only [hna, hb, false_and, false_or, true_and, iff_false]
      omega
    · rw [List.count_eq_zero.mpr hb] at hcount
      simp only [hb, or_false]
      constructor <;> rintro ⟨ha, hc⟩ <;> exact ⟨ha, by omega⟩
  | moveConstruct i j =>
    obtain ⟨o, x, hio, hjx, ho, -, rfl⟩ := step_move (.inl rfl) h
    have hcount := count_held_move hio hjx b
    rw [ho rfl, ownedOf_none, List.count_nil] at hcount
    simp only [reduceCtorEq, false_and, exists_false, or_false]
    constructor <;> rintro ⟨ha, hc⟩ <;> exact ⟨ha, by omega⟩
  | moveAssign i j =>
    obtain ⟨o, x, hio, hjx, -, ho, rfl⟩ := step_move (.inr rfl) h
    obtain ⟨d, rfl⟩ := Option.isSome_iff_exists.mp (ho rfl)
    have := count_held_move hio hjx b
    simp only [ownedOf_some, ItemOp.moveAssign.injEq] at this ⊢
    constructor
    · rintro ⟨ha, hc⟩
      by_cases hd : b ∈ d.owned
      · exact .inr ⟨i, j, d, ⟨rfl, rfl⟩, hio, hd⟩
      · rw [List.count_eq_zero.mpr hd] at this; exact .inl ⟨ha, by omega⟩
    · rintro (⟨ha, hc⟩ | ⟨i', j', d', ⟨rfl, rfl⟩, hd', hb⟩)
      · exact ⟨ha, by omega⟩
      · rw [hio] at hd'; cases hd'
        have := List.count_pos_iff.mpr hb
        exact ⟨hi.mem_allocated (by omega), by omega⟩
  | destroy i =>
    obtain ⟨x, hix, rfl⟩ := step_destroy h
    obtain ⟨hxn, hxa, hcount⟩ := hi.slot hix
    have hc := hcount b
    obtain ⟨-, -, -, hmem⟩ := foldl_free hxn hi.allocatedNodup hxa
    simp only [hmem, reduceCtorEq, false_and, exists_false, or_false]
    by_cases hb : b ∈ x.owned
    · have := List.count_pos_iff.mpr hb
      simp only [hb, not_true_eq_false, and_false, false_and, false_iff, not_and]
      intro _; omega
    · rw [List.count_eq_zero.mpr hb] at hc
      simp only [hb, not_false_eq_true, and_true]
      constructor <;> rintro ⟨ha, hc'⟩ <;> exact ⟨ha, by omega⟩

theorem Inv.leaked_run {s s' : Items} {ops : List ItemOp} (hi : Inv s) (h : s.run ops = some s') (b : Nat) :
    Leaked s' b ↔ Leaked s b ∨ ∃ ops₁ i j ops₂ u d, ops = ops₁ ++ .moveAssign i j :: ops₂ ∧
      s.run ops₁ = some u ∧ u.slots[i]? = some (some d) ∧ b ∈ d.owned := by
  induction ops generalizing s with
  | nil => cases h; simp
  | cons op ops ih =>
    obtain ⟨u₀, hu, h⟩ := Option.bind_eq_some.mp h
    rw [ih (hi.step hu) h, hi.leaked_step hu b]
    constructor
    · rintro ((hl | ⟨i, j, d, rfl, hd, hb⟩) | ⟨ops₁, i, j, ops₂, u, d, rfl, hr, hd, hb⟩)
      · exact .inl hl
      · exact .inr ⟨[], i, j, ops, s, d, rfl, rfl, hd, hb⟩
      · exact .inr ⟨op :: ops₁, i, j, ops₂, u, d, rfl, by simp [Items.run, hu, hr], hd, hb⟩
    · rintro (hl | ⟨_ | ⟨op', ops₁⟩, i, j, ops₂, u, d, he, hr, hd, hb⟩)
      · exact .inl (.inl hl)
      · -- The assignment is this step.
        obtain ⟨rfl, rfl⟩ := List.cons.inj he
        cases hr
        exact .inl (.inr ⟨i, j, d, rfl, hd, hb⟩)
      · -- The assignment comes later.
        obtain ⟨rfl, rfl⟩ := List.cons.inj he
        simp only [Items.run, hu, Option.some_bind] at hr
        exact .inr ⟨ops₁, i, j, ops₂, u, d, rfl, hr, hd, hb⟩

/-- From a program's start, a block is leaked (allocated, held by no item) exactly when a move
    assignment was made onto an item that held it; no other operation leaks. -/
theorem move_assign_leaks_target (n : Nat) (ops : List ItemOp) {s : Items} (h : (init n).run ops = some s)
    (b : Nat) :
    (b ∈ s.allocated ∧ b ∉ held s.slots) ↔ ∃ ops₁ i j ops₂ u d, ops = ops₁ ++ .moveAssign i j :: ops₂ ∧
      (init n).run ops₁ = some u ∧ u.slots[i]? = some (some d) ∧ b ∈ d.owned := by
  simpa [Leaked, Items.init] using (Inv.init n).leaked_run h b

theorem move_assign_leaks_target_overwrite :
    ∃ s, (init 2).run overwriteTrace = some s ∧ ((0 ∈ s.allocated ∧ 0 ∉ held s.slots) ↔
      ∃ ops₁ i j ops₂ u d, overwriteTrace = ops₁ ++ .moveAssign i j :: ops₂ ∧
        (init 2).run ops₁ = some u ∧ u.slots[i]? = some (some d) ∧ 0 ∈ d.owned) :=
  ⟨_, rfl, move_assign_leaks_target 2 overwriteTrace rfl 0⟩

end Items

end ArmishFireplace.Buffer
