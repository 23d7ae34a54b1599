import SerialBridge.Link

/-!
# Moves of a link

When each move of a link is possible, and all that it does.
-/

namespace SerialBridge

namespace Link

variable {Q : Type} {l l' : Link Q} {effects : List Effect}

/-- A physical write that ends makes the pump ready, or leaves it with a failure to report. -/
theorem eq_of_complete? {failure : Option Failure} (h : l.complete? failure = some (l', effects)) :
    ∃ data, l.pump = .writing data ∧
      (failure = none ∧ l' = { l with pump := .ready } ∧ effects = [.wrote data none] ∨
        ∃ f, failure = some f ∧ l' = { l with pump := .failed f } ∧
          effects = [.wrote data (some f), .logged (.chunkFailed f)]) := by
  rw [complete?] at h
  split at h
  · next data hpump =>
    refine ⟨data, hpump, ?_⟩
    cases failure with
    | none =>
      obtain ⟨rfl, rfl⟩ := Prod.mk.inj (Option.some.inj h)
      exact .inl ⟨rfl, rfl, rfl⟩
    | some f =>
      obtain ⟨rfl, rfl⟩ := Prod.mk.inj (Option.some.inj h)
      exact .inr ⟨f, rfl, rfl, rfl⟩
  · cases h

/-- The engine ends once, when it can have no more work. -/
theorem eq_of_shutdown? (h : l.shutdown? = some (l', effects)) :
    l.serving = true ∧ (l.closed = true ∨ l.subscribed = false) ∧
      l' = { l with engine := l.engine.shutdown.1, serving := false } ∧
      effects = (if l.closed then [] else [.logged .deliveryStopped]) ++ l.engine.shutdown.2 := by
  rw [shutdown?] at h
  split at h
  · next hg =>
    obtain ⟨hserving, hend⟩ := Bool.and_eq_true_iff.mp hg
    obtain ⟨rfl, rfl⟩ := Prod.mk.inj (Option.some.inj h)
    refine ⟨hserving, ?_, rfl, rfl⟩
    simpa using hend
  · cases h

/-- A pump without work stops silently. -/
theorem eq_of_halt? (h : l.halt? = some (l', effects)) :
    l.pump = .ready ∧ (l.closed = true ∨ l.serving = false) ∧
      l' = { l with pump := .stopped } ∧ effects = [] := by
  rw [halt?] at h
  split at h
  · next hpump =>
    split at h
    · next hg =>
      obtain ⟨rfl, rfl⟩ := Prod.mk.inj (Option.some.inj h)
      exact ⟨hpump, by simpa using hg, rfl, rfl⟩
    · cases h
  · cases h

variable [ByteQueue Q]

/-- An event for the engine is a step of an engine whose loop runs. -/
theorem eq_of_feed? (event : Engine.Event) (h : l.feed? event = some (l', effects)) :
    l.serving = true ∧ l' = { l with engine := (l.engine.step event).1 } ∧
      effects = (l.engine.step event).2 := by
  rw [feed?] at h
  split at h
  · next hserving =>
    obtain ⟨rfl, rfl⟩ := Prod.mk.inj (Option.some.inj h)
    exact ⟨hserving, rfl, rfl⟩
  · cases h

/-- A hand-off takes the chunk on offer from an active engine to a ready pump. -/
theorem eq_of_handOff? (h : l.handOff? = some (l', effects)) :
    l.pump = .ready ∧ l.serving = true ∧ l.engine.transmitting = true ∧
      (l.engine.outbound.chunk.bytes = [] ∧
          l' = { l with engine := (l.engine.step .chunkTaken).1 } ∧
          effects = (l.engine.step .chunkTaken).2 ∨
        l.engine.outbound.chunk.bytes ≠ [] ∧
          l' = { l with
            engine := (l.engine.step .chunkTaken).1
            pump := .writing l.engine.outbound.chunk.bytes } ∧
          effects = .logged (.sending l.engine.outbound.chunk.bytes) ::
            (l.engine.step .chunkTaken).2) := by
  rw [handOff?] at h
  split at h
  · next hpump =>
    split at h
    · next hg =>
      obtain ⟨hserving, hactive⟩ := Bool.and_eq_true_iff.mp hg
      refine ⟨hpump, hserving, hactive, ?_⟩
      by_cases hd : l.engine.outbound.chunk.bytes = []
      · simp only [if_pos hd] at h
        obtain ⟨rfl, rfl⟩ := Prod.mk.inj (Option.some.inj h)
        exact .inl ⟨hd, rfl, rfl⟩
      · simp only [if_neg hd] at h
        obtain ⟨rfl, rfl⟩ := Prod.mk.inj (Option.some.inj h)
        exact .inr ⟨hd, rfl, rfl⟩
    · cases h
  · cases h

/-- A ready pump takes what a transmitting engine offers. -/
theorem exists_handOff (hpump : l.pump = .ready) (hserving : l.serving = true)
    (hactive : l.engine.transmitting = true) :
    ∃ l' effects, l.handOff? = some (l', effects) := by
  simp only [handOff?, hpump, hserving, hactive, Bool.and_self, if_true]
  split <;> exact ⟨_, _, rfl⟩

/-- An idle engine offers nothing. -/
theorem handOff?_of_idle (hidle : l.engine.transmitting = false) : l.handOff? = none := by
  cases hpump : l.pump <;> simp [handOff?, hpump, hidle]

/-- A report reaches the engine, or is dropped because the engine is gone. -/
theorem eq_of_report? (h : l.report? = some (l', effects)) :
    ∃ f, l.pump = .failed f ∧
      (l.serving = true ∧
          l' = { l with engine := (l.engine.step (.writeFailed f)).1, pump := .ready } ∧
          effects = (l.engine.step (.writeFailed f)).2 ∨
        l.serving = false ∧ l' = { l with pump := .ready } ∧
          effects = [.logged .reportDropped]) := by
  rw [report?] at h
  split at h
  · next f hpump =>
    refine ⟨f, hpump, ?_⟩
    cases hserving : l.serving with
    | true =>
      simp only [feed?, hserving, if_true, Option.some.injEq, Prod.mk.injEq] at h
      obtain ⟨rfl, rfl⟩ := h
      exact .inl ⟨rfl, rfl, rfl⟩
    | false =>
      simp only [feed?, hserving, Bool.false_eq_true, if_false, Option.some.injEq,
        Prod.mk.injEq] at h
      obtain ⟨rfl, rfl⟩ := h
      exact .inr ⟨rfl, rfl, rfl⟩
  · cases h

/-- A run starts with one move and goes on from there. -/
theorem eq_of_run?_cons {event : Event} {rest : List Event}
    (h : l.run? (event :: rest) = some (l', effects)) :
    ∃ next first later, l.step? event = some (next, first) ∧ next.run? rest = some (l', later) ∧
      effects = first ++ later := by
  rw [run?] at h
  split at h
  · cases h
  · next next first hs =>
    split at h
    · cases h
    · next last later hr =>
      obtain ⟨rfl, rfl⟩ := Prod.mk.inj (Option.some.inj h)
      exact ⟨next, first, later, hs, hr, rfl⟩

end Link

end SerialBridge
