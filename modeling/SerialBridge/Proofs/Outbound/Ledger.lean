import SerialBridge.Proofs.Link.Reports

/-!
# A ledger of failed writes

A failure that comes in is held until a flush is told of it, and those that come in meanwhile go to
the log. A history that keeps to this balances: what came in without a word in the log was told to
flushes, in order, or is held.
-/

namespace SerialBridge

open Effect (verdict)

/-- A step in the life of an engine, as far as failed writes go. -/
inductive Happening where
  /-- The pump reported a failed write, and the engine showed this. -/
  | failed (failure : Failure) (effects : List Effect)
  | showed (effect : Effect)
  deriving DecidableEq, Repr

namespace Effect

/-- The flush that an effect answers. -/
def flush? : Effect → Option Nat
  | .replied id (.flush _) => some id
  | _ => none

theorem flush?_of_quiet {x : Effect} (h : x.flushReply? = none) : x.flush? = none := by
  cases x with
  | replied id reply =>
    cases reply with
    | read result => rfl
    | flush result => cases h
  | wrote data failure => rfl
  | logged entry => rfl

end Effect

namespace Happening

/-- The failure that came in. -/
def failure? : Happening → Option Failure
  | .failed f _ => some f
  | .showed _ => none

/-- The failure that came in without a word in the log. -/
def captured? : Happening → Option Failure
  | .failed f [] => some f
  | _ => none

/-- The failure that a flush was told. -/
def told? : Happening → Option Failure
  | .showed (.replied _ (.flush (.error (.transport f)))) => some f
  | _ => none

/-- The flush that was answered. -/
def flush? : Happening → Option Nat
  | .failed _ _ => none
  | .showed x => x.flush?

/-- The failures that came in since a flush was last told of one, oldest first. -/
def untold (history : List Happening) : List Failure :=
  (history.rtakeWhile fun x => x.told?.isNone).filterMap failure?

/-- What may happen while `held` is the failure to tell: another one is logged beside it, and an
answer tells of it, unless the bridge was closed. -/
def Right (held : Option Failure) : Happening → Prop
  | .failed f effects => effects = held.toList.map fun g => .logged (.writeErrorDropped f g)
  | .showed (.replied _ (.flush result)) => result = .error .closed ∨ result = verdict held
  | .showed _ => True

/-- The failure to tell afterwards. -/
def next (held : Option Failure) : Happening → Option Failure
  | .failed f _ => held.or (some f)
  | .showed (.replied _ (.flush result)) => if result = .error .closed then held else none
  | .showed _ => held

/-- A history that is right all along, from one failure to tell to another. -/
def Ledger : Option Failure → List Happening → Option Failure → Prop
  | held, [], last => held = last
  | held, x :: rest, last => x.Right held ∧ Ledger (x.next held) rest last

variable {held middle last : Option Failure} {a b : List Happening}

theorem ledger_append (ha : Ledger held a middle) (hb : Ledger middle b last) :
    Ledger held (a ++ b) last := by
  induction a generalizing held with
  | nil =>
    cases ha
    exact hb
  | cons x rest ih => exact ⟨ha.1, ih ha.2⟩

theorem exists_ledger_of_append (h : Ledger held (a ++ b) last) :
    ∃ middle, Ledger held a middle ∧ Ledger middle b last := by
  induction a generalizing held with
  | nil => exact ⟨held, rfl, h⟩
  | cons x rest ih =>
    obtain ⟨middle, hrest, hb⟩ := ih h.2
    exact ⟨middle, ⟨h.1, hrest⟩, hb⟩

/-! ## A ledger balances -/

/-- What is held is the oldest failure that no flush was told, and the failures that came in
without a word were told to flushes, in order, up to the one that is held. -/
structure Balanced (past : List Happening) (held : Option Failure) : Prop where
  oldest : held = (untold past).head?
  settled : past.filterMap captured? = past.filterMap told? ++ held.toList

theorem balanced_nil : Balanced [] none := ⟨rfl, rfl⟩

theorem untold_of_told_none {past : List Happening} {x : Happening} (h : x.told? = none) :
    untold (past ++ [x]) = untold past ++ x.failure?.toList := by
  rw [untold, List.rtakeWhile_concat_pos _ _ _ (by rw [h]; rfl), List.filterMap_append, untold]
  cases hx : x.failure? <;> simp [hx]

theorem untold_of_told {past : List Happening} {x : Happening} {f : Failure}
    (h : x.told? = some f) : untold (past ++ [x]) = [] := by
  rw [untold, List.rtakeWhile_concat_neg _ _ _ (by rw [h]; simp)]
  rfl

/-- What neither brings a failure nor tells of one changes nothing. -/
theorem Balanced.of_silent {past : List Happening} {x : Happening} (h : Balanced past held)
    (hf : x.failure? = none) (hc : x.captured? = none) (ht : x.told? = none) :
    Balanced (past ++ [x]) held := by
  constructor
  · rw [untold_of_told_none ht, hf, Option.toList_none, List.append_nil]
    exact h.oldest
  · simp [hc, ht, h.settled]

theorem balanced_failed {past : List Happening} (h : Balanced past held) (f : Failure) :
    Balanced (past ++ [.failed f (held.toList.map fun g => .logged (.writeErrorDropped f g))])
      (held.or (some f)) := by
  have hu (effects : List Effect) : untold (past ++ [.failed f effects]) = untold past ++ [f] :=
    untold_of_told_none rfl
  constructor
  · rw [hu, List.head?_append, ← h.oldest]
    rfl
  · rw [List.filterMap_append, List.filterMap_append, h.settled]
    cases held with
    | none => simp [captured?, told?]
    | some g =>
      have hc : captured? (.failed f [.logged (.writeErrorDropped f g)]) = none := rfl
      simp [hc, told?]

/-- A flush that is told what there is to tell leaves nothing to tell. -/
theorem balanced_answered {past : List Happening} (h : Balanced past held) (id : Nat) :
    Balanced (past ++ [.showed (.replied id (.flush (verdict held)))]) none := by
  cases held with
  | none => exact h.of_silent rfl rfl rfl
  | some f =>
    constructor
    · rw [untold_of_told (f := f) rfl]
      rfl
    · rw [List.filterMap_append, List.filterMap_append, h.settled]
      simp [captured?, told?, verdict]

theorem balanced_concat {past : List Happening} {x : Happening} (h : Balanced past held)
    (hx : x.Right held) : Balanced (past ++ [x]) (x.next held) := by
  cases x with
  | failed f effects =>
    obtain rfl : effects = held.toList.map fun g => .logged (.writeErrorDropped f g) := hx
    exact balanced_failed h f
  | showed effect =>
    cases effect with
    | replied id reply =>
      cases reply with
      | read result => exact h.of_silent rfl rfl rfl
      | flush result =>
        obtain rfl | rfl := hx
        · exact h.of_silent rfl rfl rfl
        · have hopen : verdict held ≠ .error .closed := by cases held <;> simp [verdict]
          rw [next, if_neg hopen]
          exact balanced_answered h id
    | wrote data failure => exact h.of_silent rfl rfl rfl
    | logged entry => exact h.of_silent rfl rfl rfl

theorem balanced_ledger {past xs : List Happening} (h : Balanced past held)
    (hl : Ledger held xs last) : Balanced (past ++ xs) last := by
  induction xs generalizing past held with
  | nil =>
    cases hl
    rwa [List.append_nil]
  | cons x rest ih =>
    have hrest := ih (balanced_concat h hl.1) hl.2
    rwa [List.append_assoc] at hrest

/-! ## Entries of the ledger -/

/-- Effects that answer no flush. -/
theorem ledger_quiet {effects : List Effect} (h : ∀ x ∈ effects, x.flushReply? = none) :
    Ledger held (effects.map .showed) held := by
  induction effects with
  | nil => rfl
  | cons x rest ih =>
    obtain ⟨hx, hrest⟩ := List.forall_mem_cons.mp h
    cases x with
    | replied id reply =>
      cases reply with
      | read result => exact ⟨trivial, ih hrest⟩
      | flush result => cases hx
    | wrote data failure => exact ⟨trivial, ih hrest⟩
    | logged entry => exact ⟨trivial, ih hrest⟩

/-- Flushes answered together: the oldest is told of the failure. -/
theorem ledger_answers (held : Option Failure) (waiting : List Nat) :
    Ledger held ((Outbound.answers (verdict held) waiting).map .showed)
      (if waiting = [] then held else none) := by
  induction waiting generalizing held with
  | nil => rfl
  | cons id rest ih =>
    have hopen : verdict held ≠ .error .closed := by cases held <;> simp [verdict]
    have hrest := ih none
    rw [ite_self] at hrest
    rw [Outbound.answers_cons, if_neg (List.cons_ne_nil _ _), List.map_cons]
    refine ⟨.inr rfl, ?_⟩
    rw [next, if_neg hopen]
    exact hrest

/-- Flushes answered because the bridge was closed. -/
theorem ledger_closed (held : Option Failure) (waiting : List Nat) :
    Ledger held (waiting.map fun id => .showed (.replied id (.flush (.error .closed)))) held := by
  induction waiting with
  | nil => rfl
  | cons id rest ih =>
    refine ⟨.inl rfl, ?_⟩
    rw [next, if_pos rfl]
    exact ih

end Happening

end SerialBridge
