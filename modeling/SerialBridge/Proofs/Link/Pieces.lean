import SerialBridge.Proofs.Inbound.Stream
import SerialBridge.Proofs.Link.Accounts

/-!
# The pieces of a write

A write to a link at rest leaves as its consecutive pieces of the largest size, one physical write
each. While no other write comes, those made, the one in progress and the pieces of what remains are
the pieces of the whole, and every move of the pair brings them closer to the end.
-/

namespace SerialBridge

namespace Pump

/-- The physical write in progress, if there is one. -/
def current : Pump → List Bytes
  | .writing data => [data]
  | _ => []

/-- How many moves the pump is away from taking a chunk. -/
def work : Pump → Nat
  | .writing _ => 2
  | .failed _ => 1
  | _ => 0

theorem current_of_not_busy {p : Pump} (h : p.isBusy = false) : p.current = [] := by
  cases p with
  | writing data => cases h
  | _ => rfl

theorem work_of_not_busy {p : Pump} (h : p.isBusy = false) : p.work = 0 := by
  cases p with
  | writing data => cases h
  | failed f => cases h
  | _ => rfl

end Pump

namespace Effect

def IsLogged (x : Effect) : Prop := ∃ entry, x = .logged entry

variable {effects : List Effect}

theorem isLogged_of_quiet {x : Effect} (h : x.Quiet) (hr : x.read? = none) : x.IsLogged := by
  cases x with
  | replied id reply =>
    cases reply with
    | read result => cases hr
    | flush result => cases h.2
  | wrote data failure => cases h.1
  | logged entry => exact ⟨entry, rfl⟩

theorem isLogged_of_log (log : List Log.Entry) : ∀ x ∈ log.map Effect.logged, x.IsLogged := by
  intro x hx
  obtain ⟨entry, -, rfl⟩ := List.mem_map.mp hx
  exact ⟨entry, rfl⟩

theorem writes_of_isLogged (h : ∀ x ∈ effects, x.IsLogged) : writes effects = [] := by
  refine List.filterMap_eq_nil_iff.mpr fun x hx => ?_
  obtain ⟨entry, rfl⟩ := h x hx
  rfl

theorem replies_of_isLogged (h : ∀ x ∈ effects, x.IsLogged) : replies effects = [] := by
  refine List.filterMap_eq_nil_iff.mpr fun x hx => ?_
  obtain ⟨entry, rfl⟩ := h x hx
  rfl

theorem quiet_of_isLogged (h : ∀ x ∈ effects, x.IsLogged) : ∀ x ∈ effects, x.Quiet := by
  intro x hx
  obtain ⟨entry, rfl⟩ := h x hx
  exact quiet_logged entry

end Effect

namespace Link

open Effect (writes replies unreported? verdict)
open Bytes (pieces)

/-- How many moves the pair is away from rest: three for each piece that remains, and one for the
empty chunk behind them. -/
def work (l : Link Bytes) : Nat :=
  3 * (pieces l.engine.settings.maxChunk l.engine.outbound.remaining).length + l.pump.work +
    if l.engine.transmitting then 1 else 0

/-- The accounts of one write, with the cuts. -/
structure Cuts (l : Link Bytes) (data : Bytes) (past : List Effect) : Prop where
  accounts : Accounts l data past
  offer : l.engine.outbound.chunk.bytes =
    l.engine.outbound.remaining.take l.engine.settings.maxChunk
  cut : (writes past).map Prod.fst ++ l.pump.current ++
    pieces l.engine.settings.maxChunk l.engine.outbound.remaining =
      pieces l.engine.settings.maxChunk data

variable {l l' : Link Bytes} {data : Bytes} {past effects : List Effect}

theorem cuts_new (choices : List Setting) : Cuts (new (Settings.build choices)) [] [] := by
  refine ⟨accounts_new choices, ?_, rfl⟩
  show [] = List.take _ []
  rw [List.take_nil]

/-- With an idle engine all pieces were written. -/
theorem Cuts.all_written (h : Cuts l data past) (hidle : l.engine.transmitting = false) :
    (writes past).map Prod.fst = pieces l.engine.settings.maxChunk data := by
  have hm := (Engine.not_transmitting_iff _).mp hidle
  have hcut := h.cut
  rwa [Pump.current_of_not_busy (h.accounts.idle hidle),
    h.accounts.sends.outbound.remaining_idle hm, Bytes.pieces_nil, List.append_nil,
    List.append_nil] at hcut

theorem Cuts.work_eq_zero (h : Cuts l data past) (hidle : l.engine.transmitting = false) :
    l.work = 0 := by
  have hm := (Engine.not_transmitting_iff _).mp hidle
  rw [work, h.accounts.sends.outbound.remaining_idle hm, Bytes.pieces_nil,
    Pump.work_of_not_busy (h.accounts.idle hidle), hidle]
  rfl

/-- An idle engine with nothing to report can start afresh. -/
theorem Cuts.restart (h : Cuts l data past) (hidle : l.engine.transmitting = false)
    (hf : unreported? past = none) : Cuts l [] [] := by
  have hm := (Engine.not_transmitting_iff _).mp hidle
  have hbusy := h.accounts.idle hidle
  have hremaining := h.accounts.sends.outbound.remaining_idle hm
  refine ⟨⟨h.accounts.sends, ?_, h.accounts.idle, fun hserving => ?_⟩, h.offer, ?_⟩
  · rw [Pump.inFlight_of_not_busy hbusy, hremaining]
    rfl
  · rw [← h.accounts.failure hserving, hf]
    rfl
  · rw [Pump.current_of_not_busy hbusy, hremaining, Bytes.pieces_nil]
    rfl

/-- Log entries do not count. -/
theorem Accounts.of_isLogged (h : Accounts l data past) (hl : ∀ x ∈ effects, x.IsLogged) :
    Accounts l data (past ++ effects) := by
  have hq := Effect.quiet_of_isLogged hl
  refine ⟨h.sends, ?_, h.idle, fun hserving => ?_⟩
  · rw [Effect.sent_append, Effect.sent_eq_nil fun x hx => (hq x hx).1, List.append_nil]
    exact h.bytes
  · rw [Effect.unreported?_quiet _ hq]
    exact h.failure hserving

theorem Cuts.of_isLogged (h : Cuts l data past) (hl : ∀ x ∈ effects, x.IsLogged) :
    Cuts l data (past ++ effects) := by
  refine ⟨h.accounts.of_isLogged hl, h.offer, ?_⟩
  rw [Effect.writes_append, Effect.writes_of_isLogged hl, List.append_nil]
  exact h.cut

theorem accounts_of_no_write (h : Accounts l data past) (event : Event)
    (hs : l.step? event = some (l', effects)) (hn : event.written = []) :
    Accounts l' data (past ++ effects) := by
  have hnext := accounts_step h hs
  rwa [hn, List.append_nil] at hnext

/-! ## The calls -/

theorem cuts_write (h : Cuts l [] []) (hidle : l.engine.transmitting = false)
    (hs : l.feed? (.write data) = some (l', effects)) :
    Cuts l' data effects ∧ (∀ x ∈ effects, x.IsLogged) ∧
      l'.engine.outbound.waiting = l.engine.outbound.waiting ∧
      l'.work ≤ 3 * (pieces l.engine.settings.maxChunk data).length + 1 := by
  obtain ⟨-, hmax, -⟩ := h.accounts.sends.settings
  have hm := (Engine.not_transmitting_iff _).mp hidle
  have hstep : l.step? (.write data) = some (l', effects) := hs
  have haccounts : Accounts l' data effects := accounts_step h.accounts hstep
  obtain ⟨-, rfl, rfl⟩ := eq_of_feed? (.write data) hs
  have hlogged : ∀ x ∈ (l.engine.step (.write data)).2, x.IsLogged := fun x hx =>
    Effect.isLogged_of_quiet (Outbound.quiet_write _ _ data x hx)
      (Outbound.no_read_write _ _ data x hx)
  have hremaining : (l.engine.step (.write data)).1.outbound.remaining = data := by
    have hr := Outbound.remaining_write h.accounts.sends.outbound hmax data
    rwa [h.accounts.sends.outbound.remaining_idle hm, List.nil_append] at hr
  refine ⟨⟨haccounts, ?_, ?_⟩, hlogged, ?_, ?_⟩
  · simp only [Engine.settings_step]
    rw [hremaining]
    exact Outbound.offer_write h.accounts.sends.outbound hmax hm data
  · simp only [Engine.settings_step]
    rw [hremaining, Effect.writes_of_isLogged hlogged,
      Pump.current_of_not_busy (h.accounts.idle hidle)]
    rfl
  · exact (Outbound.waiting_write l.engine.outbound l.engine.settings.maxChunk data).1
  · simp only [work, Engine.settings_step]
    rw [hremaining, Pump.work_of_not_busy (h.accounts.idle hidle)]
    split <;> omega

/-- A flush waits for a transmitting engine, and an idle one answers it. -/
theorem cuts_flush (h : Cuts l data past) {id : Nat}
    (hs : l.feed? (.flush id) = some (l', effects)) :
    Cuts l' data (past ++ effects) ∧ l'.work = l.work ∧
      (l'.engine.transmitting = true ∧ effects = [] ∧
          l'.engine.outbound.waiting = l.engine.outbound.waiting ++ [id] ∨
        l'.engine.transmitting = false ∧
          effects = [.replied id (.flush (verdict (unreported? past)))]) := by
  have haccounts := accounts_of_no_write h.accounts (.flush id) hs rfl
  obtain ⟨hserving, rfl, rfl⟩ := eq_of_feed? (.flush id) hs
  have hoffer := Outbound.sameOffer_flush l.engine.outbound id
  have hremaining : (l.engine.step (.flush id)).1.outbound.remaining =
      l.engine.outbound.remaining := hoffer.remaining
  have hchunk : (l.engine.step (.flush id)).1.outbound.chunk = l.engine.outbound.chunk :=
    hoffer.chunk
  have hmode : (l.engine.step (.flush id)).1.transmitting = l.engine.transmitting :=
    congrArg (· == .active) hoffer.mode
  have heffects : writes (l.engine.step (.flush id)).2 = [] := by
    cases hactive : l.engine.outbound.mode <;>
      simp [Engine.step, Engine.withOutbound, Outbound.flush, hactive, writes, Effect.write?]
  refine ⟨⟨haccounts, ?_, ?_⟩, ?_, ?_⟩
  · simp only [Engine.settings_step]
    rw [hchunk, hremaining]
    exact h.offer
  · simp only [Engine.settings_step]
    rw [hremaining, Effect.writes_append, heffects, List.append_nil]
    exact h.cut
  · simp only [work, Engine.settings_step]
    rw [hremaining, hmode]
  · cases hactive : l.engine.transmitting with
    | true =>
      have hm := (Engine.transmitting_iff _).mp hactive
      refine .inl ⟨hmode.trans hactive, ?_, ?_⟩
      · simp only [Engine.step, Engine.withOutbound, Outbound.flush, hm]
      · simp only [Engine.step, Engine.withOutbound, Outbound.flush, hm]
    | false =>
      have hm := (Engine.not_transmitting_iff _).mp hactive
      refine .inr ⟨hmode.trans hactive, ?_⟩
      simp only [Engine.step, Engine.withOutbound, Outbound.flush, hm, Outbound.outcome_eq_verdict,
        h.accounts.failure_of_idle hserving hactive]

/-! ## What happens by itself -/

theorem cuts_incoming (h : Cuts l data past) {n : Notification}
    (hunread : l.engine.inbound.waiting = [])
    (hs : l.feed? (.incoming n) = some (l', effects)) :
    Cuts l' data (past ++ effects) ∧ (∀ x ∈ effects, x.IsLogged) ∧
      l'.engine.inbound.waiting = [] := by
  have haccounts := accounts_of_no_write h.accounts (.incoming n) hs rfl
  obtain ⟨-, rfl, rfl⟩ := eq_of_feed? (.incoming n) hs
  have hwaiting : (l.engine.inbound.accept n).waiting = [] := hunread
  have hlogged : ∀ x ∈ (l.engine.step (.incoming n)).2, x.IsLogged := by
    intro x hx
    simp only [Engine.step, Engine.withInbound, Inbound.incoming, hwaiting, Inbound.serve,
      List.append_nil, List.mem_cons] at hx
    rcases hx with rfl | hx
    · exact ⟨_, rfl⟩
    · cases hf : n.failure with
      | none => simp [hf] at hx
      | some f =>
        rw [hf] at hx
        exact ⟨_, List.mem_singleton.mp hx⟩
  refine ⟨⟨haccounts, h.offer, ?_⟩, hlogged, ?_⟩
  · rw [Effect.writes_append, Effect.writes_of_isLogged hlogged, List.append_nil]
    exact h.cut
  · simp only [Engine.step, Engine.withInbound, Inbound.incoming, hwaiting, Inbound.serve]

/-- The physical write that ends is the one that was in progress. -/
theorem cuts_complete (h : Cuts l data past) {failure : Option Failure}
    (hs : l.complete? failure = some (l', effects)) :
    Cuts l' data (past ++ effects) ∧ l'.work < l.work ∧ l'.engine = l.engine ∧
      replies effects = [] ∧
      ∃ piece, l.pump = .writing piece ∧ writes effects = [(piece, failure)] := by
  have haccounts := accounts_complete h.accounts hs
  have hcut := h.cut
  obtain ⟨piece, hpump, ⟨rfl, rfl, rfl⟩ | ⟨f, rfl, rfl, rfl⟩⟩ := eq_of_complete? hs
  all_goals
    rw [hpump] at hcut
    refine ⟨⟨haccounts, h.offer, ?_⟩, ?_, rfl, rfl, piece, hpump, rfl⟩
    · rw [← hcut, Effect.writes_append, List.map_append]
      simp [writes, Effect.write?, Pump.current]
    · simp [work, hpump, Pump.work]

theorem cuts_report (h : Cuts l data past) (hserving : l.serving = true)
    (hs : l.report? = some (l', effects)) :
    Cuts l' data (past ++ effects) ∧ l'.work < l.work ∧
      l'.engine.transmitting = l.engine.transmitting ∧
      l'.engine.outbound.waiting = l.engine.outbound.waiting ∧ ∀ x ∈ effects, x.IsLogged := by
  have haccounts := accounts_report h.accounts hs
  have hcut := h.cut
  obtain ⟨f, hpump, ⟨-, rfl, rfl⟩ | ⟨hgone, -, -⟩⟩ := eq_of_report? hs
  · have hoffer := Outbound.sameOffer_failed l.engine.outbound f
    have hremaining : (l.engine.step (.writeFailed f)).1.outbound.remaining =
        l.engine.outbound.remaining := hoffer.remaining
    have hchunk : (l.engine.step (.writeFailed f)).1.outbound.chunk = l.engine.outbound.chunk :=
      hoffer.chunk
    have hmode : (l.engine.step (.writeFailed f)).1.transmitting = l.engine.transmitting :=
      congrArg (· == .active) hoffer.mode
    have hlogged : ∀ x ∈ (l.engine.step (.writeFailed f)).2, x.IsLogged := fun x hx =>
      Effect.isLogged_of_quiet (Outbound.quiet_failed _ f x hx) (Outbound.no_read_failed _ f x hx)
    rw [hpump] at hcut
    refine ⟨⟨haccounts, ?_, ?_⟩, ?_, hmode, ?_, hlogged⟩
    · simp only [Engine.settings_step]
      rw [hchunk, hremaining]
      exact h.offer
    · simp only [Engine.settings_step]
      rw [hremaining, Effect.writes_append, Effect.writes_of_isLogged hlogged, List.append_nil]
      exact hcut
    · simp only [work, Engine.settings_step]
      rw [hremaining, hmode, hpump]
      simp [Pump.work]
    · simp only [Engine.step, Engine.withOutbound, Outbound.failed]
      split <;> rfl
  · cases hserving.symm.trans hgone

/-- What remains after a hand-off lies behind the chunk that was taken. -/
theorem remaining_of_offer (h : Cuts l data past) :
    (l.engine.step .chunkTaken).1.outbound.remaining =
      l.engine.outbound.remaining.drop l.engine.settings.maxChunk := by
  have hr := Outbound.remaining_taken h.accounts.sends.outbound h.accounts.sends.settings.1
  rw [h.offer] at hr
  exact List.append_cancel_left (hr.trans (List.take_append_drop _ _).symm)

theorem remaining_eq_nil (h : Cuts l data past) (hd : l.engine.outbound.chunk.bytes = []) :
    l.engine.outbound.remaining = [] := by
  have hpos : 0 < l.engine.settings.maxChunk := h.accounts.sends.settings.1
  have htake := h.offer
  rw [hd, eq_comm, List.take_eq_nil_iff] at htake
  exact htake.resolve_left (by omega)

/-- A hand-off of bytes passes the next piece to the pump. -/
theorem cuts_handOff_bytes (h : Cuts l data past) (hs : l.handOff? = some (l', effects))
    (hd : l.engine.outbound.chunk.bytes ≠ []) :
    Cuts l' data (past ++ effects) ∧ l'.work < l.work ∧ l'.engine.transmitting = true ∧
      l'.engine.outbound.waiting = l.engine.outbound.waiting ∧ ∀ x ∈ effects, x.IsLogged := by
  have hpos : 0 < l.engine.settings.maxChunk := h.accounts.sends.settings.1
  have haccounts := accounts_of_no_write h.accounts .handOff hs rfl
  have hremaining := remaining_of_offer h
  have hoffer := Outbound.offer_taken h.accounts.sends.outbound hpos
  have hcut := h.cut
  have hne : l.engine.outbound.remaining ≠ [] := by
    intro hnil
    rw [h.offer, hnil, List.take_nil] at hd
    exact hd rfl
  have hpieces := Bytes.pieces_of_ne_nil (Nat.ne_of_gt hpos) hne
  obtain ⟨hpump, hserving, hactive, ⟨hn, -, -⟩ | ⟨-, rfl, rfl⟩⟩ := eq_of_handOff? hs
  · exact absurd hn hd
  have hmode := Engine.transmitting_of_bytes h.accounts.sends hactive hd
  have hbusy : l.pump.isBusy = false := by
    rw [hpump]
    rfl
  obtain ⟨heffects, -⟩ | ⟨hempty, -⟩ := chunkTaken_cases h.accounts hserving hbusy
  · have hlogged : ∀ x ∈ .logged (.sending l.engine.outbound.chunk.bytes) ::
        (l.engine.step .chunkTaken).2, x.IsLogged := by
      rw [heffects]
      exact fun x hx => ⟨_, List.mem_singleton.mp hx⟩
    refine ⟨⟨haccounts, ?_, ?_⟩, ?_, hmode, ?_, hlogged⟩
    · simp only [Engine.settings_step]
      exact hoffer
    · simp only [Engine.settings_step]
      rw [hpump, hpieces, ← h.offer] at hcut
      rw [Effect.writes_append, Effect.writes_of_isLogged hlogged, List.append_nil, hremaining,
        ← hcut]
      simp [Pump.current]
    · simp only [work, Engine.settings_step]
      rw [hremaining, hmode, hactive, hpump, hpieces, List.length_cons]
      simp only [Pump.work]
      omega
    · obtain ⟨-, ht⟩ | ⟨-, -, ht⟩ | ⟨-, he, -⟩ := Outbound.taken_cases hpos l.engine.outbound
      · simp only [Engine.step, Engine.withOutbound, ht]
      · simp only [Engine.step, Engine.withOutbound, ht]
      · exact absurd ((Chunk.isEmpty_iff_bytes h.accounts.sends.outbound.wellFormed).mp he) hd
  · exact absurd hempty hd

/-- The hand-off of an empty chunk ends the burst and answers the flushes. -/
theorem cuts_handOff_empty (h : Cuts l data past) (hs : l.handOff? = some (l', effects))
    (hd : l.engine.outbound.chunk.bytes = []) :
    Cuts l' data (past ++ effects) ∧ l'.engine.transmitting = false ∧
      effects = .logged .idle ::
        Outbound.answers (verdict (unreported? past)) l.engine.outbound.waiting := by
  have hpos : 0 < l.engine.settings.maxChunk := h.accounts.sends.settings.1
  have haccounts := accounts_of_no_write h.accounts .handOff hs rfl
  have hremaining := remaining_of_offer h
  have hoffer := Outbound.offer_taken h.accounts.sends.outbound hpos
  have hnil := remaining_eq_nil h hd
  have hcut := h.cut
  obtain ⟨hpump, hserving, hactive, ⟨-, rfl, rfl⟩ | ⟨hn, -, -⟩⟩ := eq_of_handOff? hs
  · have hbusy : l.pump.isBusy = false := by
      rw [hpump]
      rfl
    obtain ⟨heffects, -⟩ | ⟨-, heffects, hidle, -⟩ := chunkTaken_cases h.accounts hserving hbusy
    · have ht := Outbound.taken_of_remaining_nil h.accounts.sends.outbound hpos hnil
      simp [Engine.step, Engine.withOutbound, ht, Outbound.settle] at heffects
    · have hwrites : writes (l.engine.step .chunkTaken).2 = [] := by
        rw [heffects]
        exact List.filterMap_eq_nil_iff.mpr
          (List.forall_mem_cons.mpr ⟨rfl, Outbound.write?_answers _ _⟩)
      refine ⟨⟨haccounts, ?_, ?_⟩, hidle, heffects⟩
      · simp only [Engine.settings_step]
        exact hoffer
      · simp only [Engine.settings_step]
        rw [hnil] at hcut
        rw [Effect.writes_append, hwrites, List.append_nil, hremaining, hnil, List.drop_nil]
        exact hcut
  · exact absurd hd hn

end Link

end SerialBridge
