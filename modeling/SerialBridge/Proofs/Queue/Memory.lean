import Mathlib.Order.Bounds.Defs
import SerialBridge.Proofs.Queue.Fifo

/-!
# The memory of a ring

A ring takes no more memory than its largest content and one step of growth need, and keeps what it
took. All the while its cursors stay inside the buffer, and they meet at cell 0 and nowhere else.
-/

namespace SerialBridge

namespace Ring

/-- The ring that some operations leave. -/
def after (q : Ring) (operations : List QueueOperation) : Ring :=
  (QueueOperation.performAll perform q operations).2

@[simp] theorem after_nil (q : Ring) : q.after [] = q := rfl

@[simp] theorem after_cons (q : Ring) (operation : QueueOperation) (rest : List QueueOperation) :
    q.after (operation :: rest) = (q.perform operation).2.after rest := rfl

/-- The most bytes that are held at once: before some operations, between any two, or behind. -/
def peak (q : Ring) : List QueueOperation → Nat
  | [] => q.queued
  | operation :: rest => max q.queued ((q.perform operation).2.peak rest)

theorem queued_le_peak (q : Ring) (operations : List QueueOperation) :
    q.queued ≤ q.peak operations := by
  cases operations with
  | nil => exact Nat.le_refl _
  | cons operation rest => exact Nat.le_max_left _ _

/-- The peak is reached behind some of the operations, and exceeded behind none. -/
theorem isGreatest_peak (q : Ring) (operations : List QueueOperation) :
    IsGreatest {n | ∃ earlier, earlier <+: operations ∧ (q.after earlier).queued = n}
      (q.peak operations) := by
  induction operations generalizing q with
  | nil =>
    constructor
    · exact ⟨[], List.prefix_refl _, rfl⟩
    · rintro n ⟨earlier, hearlier, rfl⟩
      rw [List.prefix_nil.mp hearlier]
      exact Nat.le_refl _
  | cons operation rest ih =>
    obtain ⟨⟨earlier, hearlier, hreached⟩, hmost⟩ := ih (q.perform operation).2
    constructor
    · rcases Nat.le_total ((q.perform operation).2.peak rest) q.queued with hle | hle
      · exact ⟨[], List.nil_prefix, (Nat.max_eq_left hle).symm⟩
      · refine ⟨operation :: earlier, (List.prefix_cons_inj operation).mpr hearlier, ?_⟩
        rw [peak, Nat.max_eq_right hle, after_cons, hreached]
    · rintro n ⟨sooner, hsooner, rfl⟩
      rcases List.prefix_cons_iff.mp hsooner with rfl | ⟨tail, rfl, htail⟩
      · exact Nat.le_max_left _ _
      · exact Nat.le_trans (hmost ⟨tail, htail, rfl⟩) (Nat.le_max_right _ _)

/-! ## One operation -/

variable {q : Ring} {top : Nat}

theorem perform_read (h : q.Valid) (buffer : Bytes) :
    (q.perform (.read buffer)).2 = (q.read buffer.length).2 := by
  simp only [perform, fill_eq_readInto h]
  rfl

theorem size_le_size_write (h : q.Valid) (src : Bytes) :
    q.cells.size ≤ (q.write src).cells.size := by
  simp only [write]
  split
  · exact Nat.le_refl _
  · split
    · rw [size_append, size_grow h]
      exact Nat.le_add_right _ _
    · exact Nat.le_of_eq (size_append q src).symm

/-- What reads leave of a ring: the same buffer, with no more bytes in it. -/
structure Drained (q rest : Ring) : Prop where
  valid : rest.Valid
  cells : rest.cells = q.cells
  growth : rest.growth = q.growth
  queued : rest.queued ≤ q.queued

theorem drained_self (h : q.Valid) : q.Drained q := ⟨h, rfl, rfl, Nat.le_refl _⟩

theorem drained_read (h : q.Valid) (n : Nat) : q.Drained (q.read n).2 := by
  obtain ⟨hcells, hgrowth⟩ := cells_read h n
  refine ⟨valid_read h n, hcells, hgrowth, ?_⟩
  rw [queued_read h]
  exact Nat.sub_le _ _

theorem Drained.trans {rest last : Ring} (h : q.Drained rest) (h' : rest.Drained last) :
    q.Drained last :=
  ⟨h'.valid, h'.cells.trans h.cells, h'.growth.trans h.growth, Nat.le_trans h'.queued h.queued⟩

/-- In range, with no more than `bytes` bytes in it, and no larger than these and one step of growth
need. -/
structure Within (growth bytes : Nat) (q : Ring) : Prop where
  valid : q.Valid
  grows : q.growth = growth
  growing : 1 ≤ growth
  queued : q.queued ≤ bytes
  size : q.cells.size ≤ bytes + growth

variable {growth bytes : Nat}

theorem within_withGrowth (growth : Nat) : (withGrowth growth).Within (max growth 1) 0 :=
  ⟨valid_withGrowth growth, rfl, Nat.le_max_right _ _, Nat.le_refl 0, Nat.zero_le _⟩

theorem within_new (hpos : 1 ≤ growth) : (withGrowth growth).Within growth 0 := by
  have hnew := within_withGrowth growth
  rwa [Nat.max_eq_left hpos] at hnew

theorem Within.mono {more : Nat} (h : q.Within growth bytes) (hle : bytes ≤ more) :
    q.Within growth more :=
  ⟨h.valid, h.grows, h.growing, Nat.le_trans h.queued hle,
    Nat.le_trans h.size (Nat.add_le_add_right hle _)⟩

theorem Within.drained {rest : Ring} (h : q.Within growth bytes) (hd : q.Drained rest) :
    rest.Within growth bytes := by
  refine ⟨hd.valid, hd.growth.trans h.grows, h.growing, Nat.le_trans hd.queued h.queued, ?_⟩
  rw [hd.cells]
  exact h.size

theorem within_write (h : q.Within growth bytes) (src : Bytes) :
    (q.write src).Within growth (max bytes (q.write src).queued) := by
  have hgrowth := h.grows
  have hsize := h.size
  have hqueued := queued_write h.valid src
  have hgrown := size_write_le h.valid (by rw [hgrowth]; exact h.growing) src
  refine ⟨valid_write h.valid src, ?_, h.growing, Nat.le_max_right _ _, by omega⟩
  rw [growth_write]
  exact hgrowth

theorem Within.write (h : q.Within growth bytes) (src : Bytes) :
    (q.write src).Within growth (bytes + src.length) := by
  have hqueued := queued_write h.valid src
  have hbytes := h.queued
  exact (within_write h src).mono (by omega)

/-- A buffer that grew by single steps goes on to do so while less than a step is written at once. -/
theorem dvd_size_write (h : q.Valid) {src : Bytes} (hsrc : src.length < q.growth)
    (hdvd : q.growth ∣ q.cells.size) : q.growth ∣ (q.write src).cells.size := by
  simp only [write]
  split
  · exact hdvd
  · split
    · have hmax : max (src.length - (q.cells.size - q.queued) + 1) q.growth = q.growth := by omega
      rw [size_append, size_grow h, hmax]
      exact Nat.dvd_add hdvd (Nat.dvd_refl _)
    · rw [size_append]
      exact hdvd

/-- A buffer, if there is one, that also has room for more than the most bytes held so far. -/
structure Sized (growth top : Nat) (q : Ring) : Prop where
  within : q.Within growth top
  room : q.cells.size = 0 ∧ top = 0 ∨ top < q.cells.size

theorem sized_withGrowth (growth : Nat) : (withGrowth growth).Sized (max growth 1) 0 :=
  ⟨within_withGrowth growth, .inl ⟨rfl, rfl⟩⟩

theorem sized_read (h : q.Sized growth top) (n : Nat) : (q.read n).2.Sized growth top := by
  refine ⟨h.within.drained (drained_read h.within.valid n), ?_⟩
  rw [(cells_read h.within.valid n).1]
  exact h.room

/-- The new content is below the size by the free cell, the old peak by the size before. -/
theorem sized_write (h : q.Sized growth top) (src : Bytes) :
    (q.write src).Sized growth (max top (q.write src).queued) := by
  have hwithin := within_write h.within src
  have hgrown := size_le_size_write h.within.valid src
  have hfits := queued_lt hwithin.valid
  have hroom := h.room
  exact ⟨hwithin, by omega⟩

/-- An operation keeps the buffer or takes a larger one. -/
theorem sized_perform (h : q.Sized growth top) (operation : QueueOperation) :
    (q.perform operation).2.Sized growth (max top (q.perform operation).2.queued) ∧
      q.cells.size ≤ (q.perform operation).2.cells.size := by
  cases operation with
  | write src => exact ⟨sized_write h src, size_le_size_write h.within.valid src⟩
  | read buffer =>
    have hread := sized_read h buffer.length
    have hcells := (cells_read h.within.valid buffer.length).1
    rw [perform_read h.within.valid, Nat.max_eq_left hread.within.queued]
    exact ⟨hread, Nat.le_of_eq (congrArg ByteArray.size hcells).symm⟩

/-! ## Runs of operations -/

theorem sized_after (h : q.Sized growth top) (operations : List QueueOperation) :
    (q.after operations).Sized growth (max top (q.peak operations)) ∧
      q.cells.size ≤ (q.after operations).cells.size := by
  induction operations generalizing q top with
  | nil =>
    rw [after_nil, peak, Nat.max_eq_left h.within.queued]
    exact ⟨h, Nat.le_refl _⟩
  | cons operation rest ih =>
    obtain ⟨hnext, hsize⟩ := sized_perform h operation
    obtain ⟨hlast, hsizes⟩ := ih hnext
    have hqueued := h.within.queued
    have hpeak := queued_le_peak (q.perform operation).2 rest
    have htop : max (max top (q.perform operation).2.queued)
        ((q.perform operation).2.peak rest) = max top (q.peak (operation :: rest)) := by
      rw [peak]
      omega
    rw [after_cons]
    exact ⟨htop ▸ hlast, Nat.le_trans hsize hsizes⟩

/-- A ring in range is empty exactly when its cursors meet, which they do at cell 0. -/
theorem queued_eq_zero_iff (h : q.Valid) :
    (q.queued = 0 ↔ q.head = q.tail) ∧ (q.head = q.tail ↔ q.head = 0 ∧ q.tail = 0) := by
  have hi := h.inside
  have hr := h.rewound
  rw [queued]
  split <;> constructor <;> constructor <;> intro <;> omega

/-- The cursors and the memory of a ring after any operations, whatever its growth. There is no
buffer yet and both cursors are 0, or both are inside the buffer, which holds fewer bytes than it
has cells. The ring is empty exactly when the cursors meet, and they meet only at 0. The buffer never
shrinks. If there is one, it has more cells than bytes were ever held at once, and at most as many
as these bytes and one step of growth. -/
theorem memory_bounded (growth : Nat) (operations : List QueueOperation) :
    let q := (withGrowth growth).after operations
    let most := (withGrowth growth).peak operations
    (q.cells.size = 0 ∧ q.head = 0 ∧ q.tail = 0 ∨
      q.head < q.cells.size ∧ q.tail < q.cells.size ∧ q.queued < q.cells.size) ∧
    ((q.queued = 0 ↔ q.head = q.tail) ∧ (q.head = q.tail ↔ q.head = 0 ∧ q.tail = 0)) ∧
    (∀ later, q.cells.size ≤ (q.after later).cells.size) ∧
    (q.cells.size = 0 ∨ most < q.cells.size ∧ q.cells.size ≤ most + max growth 1) ∧
    IsGreatest {n | ∃ earlier, earlier <+: operations ∧
      ((withGrowth growth).after earlier).queued = n} most := by
  intro q most
  have hrun := (sized_after (sized_withGrowth growth) operations).1
  rw [Nat.zero_max] at hrun
  have hsized : q.Sized (max growth 1) most := hrun
  have hinside := hsized.within.valid.inside
  have hfits := queued_lt hsized.within.valid
  have hsize := hsized.within.size
  have hroom := hsized.room
  refine ⟨by omega, queued_eq_zero_iff hsized.within.valid, fun later => ?_, by omega,
    isGreatest_peak _ operations⟩
  exact (sized_after hsized later).2

/-- Six bytes are the most that are ever held here; a ring that grows by four takes eight cells for
them. -/
example :
    let operations : List QueueOperation :=
      [.write [1, 2, 3], .read [0, 0], .write [4, 5, 6, 7, 8], .read [0, 0, 0, 0], .write [9]]
    (withGrowth 4).peak operations = 6 ∧ ((withGrowth 4).after operations).cells.size = 8 := by
  decide +kernel

end Ring

end SerialBridge
