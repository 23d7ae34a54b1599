import Mathlib.Algebra.GroupWithZero.Nat
import Mathlib.Data.List.Induction
import Mathlib.Data.List.Infix
import SerialBridge.Peripheral
import SerialBridge.Proofs.Checked.Words

/-!
# Runs of the loopback peripheral

Whatever is asked of a new loopback peripheral, its state and the notifications it sends can be read
off the history: the mode off the last write to the mode characteristic, the handler off the last
subscription, and the echoes off the writes to the receiving characteristic, each judged by the
requests before it. A request that fails leaves no trace.
-/

namespace SerialBridge

namespace Request

variable {H : Type}

/-- The value that a request writes to a characteristic. -/
def written? (target : Attribute) : Request H → Option Bytes
  | .write c value _ => if c = target then some value else none
  | _ => none

/-- What a request makes the listener of a characteristic: a handler or nobody. -/
def installed? (target : Attribute) : Request H → Option (Option H)
  | .indicate c handler => if c = target then some handler else none
  | _ => none

end Request

namespace Loopback

variable {H : Type}

/-! ## Histories -/

/-- Whether the last write to the mode characteristic was the single byte 1. -/
def InBridgeMode (past : List (Request H)) : Prop :=
  (past.filterMap (Request.written? mode)).getLast? = some [1]

instance (past : List (Request H)) : Decidable (InBridgeMode past) :=
  inferInstanceAs (Decidable (_ = _))

/-- The handler installed last, unless it was taken away again. -/
def listener (past : List (Request H)) : Option H :=
  (past.filterMap (Request.installed? tx)).getLast?.join

/-- The value that a request writes to the receiving characteristic, if it is not too long. -/
def fitting? (request : Request H) : Option Bytes :=
  (request.written? rx).filter fun value => value.length ≤ chunkLimit

/-- Each request with the requests before it. -/
def moments (requests : List (Request H)) : List (List (Request H) × Request H) :=
  requests.inits.zip requests

/-- The value that is echoed at a moment, whether or not anyone listens. -/
def echo? : List (Request H) × Request H → Option Bytes
  | (past, request) => if InBridgeMode past then fitting? request else none

/-- The notification at a moment: the echo as it is, to the handler installed last. -/
def notice? : List (Request H) × Request H → Option (Delivery H)
  | (past, request) => do
    let handler ← listener past
    let value ← echo? (past, request)
    return ⟨handler, value, none⟩

theorem filterMap_concat {α β : Type} (f : α → Option β) (as : List α) (a : α) :
    (as ++ [a]).filterMap f = as.filterMap f ++ (f a).toList := by
  rw [List.filterMap_append, List.filterMap_cons]
  cases f a <;> rfl

/-- The last find is at the end, or it is an earlier one. -/
theorem getLast?_filterMap_concat {α β : Type} (f : α → Option β) (as : List α) (a : α) :
    ((as ++ [a]).filterMap f).getLast? = (f a).or (as.filterMap f).getLast? := by
  rw [filterMap_concat, List.getLast?_append]
  cases f a <;> rfl

theorem moments_concat (requests : List (Request H)) (request : Request H) :
    moments (requests ++ [request]) = moments requests ++ [(requests, request)] := by
  induction requests with
  | nil => rfl
  | cons first rest ih =>
    rw [moments, moments] at ih
    simp only [moments, List.cons_append, List.inits_cons, List.zip_cons_cons, List.zip_map_left,
      ih, List.map_append, List.map_singleton, Prod.map_apply, id_eq]

/-! ## One request -/

/-- The requests that the peripheral carries out; it refuses all others. -/
def Accepts : Request H → Prop
  | .services _ | .descriptors _ _ => True
  | .characteristics _ s => s = service
  | .indicate c _ => c = tx
  | .write c value _ => c = mode ∨ c = rx ∧ value.length ≤ chunkLimit

/-- A request that concerns neither the handler nor the mode and brings no value that fits. -/
structure Idle (request : Request H) : Prop where
  installed : request.installed? tx = none
  mode : request.written? mode = none
  fitting : fitting? request = none

variable {p : Loopback H} {past : List (Request H)} {request : Request H} {value : Bytes}

theorem exists_refuse (p : Loopback H) (h : ¬Accepts request) :
    ∃ f, p.respond request = p.refuse f := by
  cases request with
  | services filter => exact absurd trivial h
  | characteristics filter s => exact ⟨_, if_neg h⟩
  | descriptors filter c => exact absurd trivial h
  | indicate c handler => exact ⟨_, if_neg h⟩
  | write c value withResponse =>
    obtain ⟨hmode, hrx⟩ := not_or.mp h
    rw [respond, write, if_neg hmode]
    by_cases hc : c = rx
    · have hlong : chunkLimit < value.length := Nat.not_le.mp fun hfits => hrx ⟨hc, hfits⟩
      rw [if_neg (not_not_intro hc), if_pos hlong]
      exact ⟨_, rfl⟩
    · rw [if_pos hc]
      exact ⟨_, rfl⟩

theorem idle_of_not_accepts (h : ¬Accepts request) : Idle request := by
  cases request with
  | services filter => exact ⟨rfl, rfl, rfl⟩
  | characteristics filter s => exact ⟨rfl, rfl, rfl⟩
  | descriptors filter c => exact ⟨rfl, rfl, rfl⟩
  | indicate c handler => exact ⟨if_neg h, rfl, rfl⟩
  | write c value withResponse =>
    obtain ⟨hmode, hrx⟩ := not_or.mp h
    refine ⟨rfl, if_neg hmode, ?_⟩
    rw [fitting?, Request.written?]
    by_cases hc : c = rx
    · have hlong : ¬value.length ≤ chunkLimit := fun hfits => hrx ⟨hc, hfits⟩
      rw [if_pos hc, Option.filter_some, decide_eq_false hlong]
      rfl
    · rw [if_neg hc, Option.filter_none]

/-- A request installs a handler, sets the mode or brings a value that fits, or it leaves everything
as it was. -/
theorem respond_cases (p : Loopback H) (request : Request H) :
    (Idle request ∧ (p.respond request).2 = p ∧ (p.respond request).1.deliveries = []) ∨
    (∃ handler, request = .indicate tx handler) ∨
    (∃ value withResponse, request = .write mode value withResponse) ∨
    ∃ value withResponse, request = .write rx value withResponse ∧ value.length ≤ chunkLimit := by
  by_cases ha : Accepts request
  · cases request with
    | services filter => exact .inl ⟨⟨rfl, rfl, rfl⟩, rfl, rfl⟩
    | characteristics filter s =>
      obtain rfl : s = service := ha
      rw [respond, if_pos rfl]
      exact .inl ⟨⟨rfl, rfl, rfl⟩, rfl, rfl⟩
    | descriptors filter c => exact .inl ⟨⟨rfl, rfl, rfl⟩, rfl, rfl⟩
    | indicate c handler =>
      obtain rfl : c = tx := ha
      exact .inr (.inl ⟨handler, rfl⟩)
    | write c value withResponse =>
      obtain rfl | ⟨rfl, hfits⟩ := ha
      · exact .inr (.inr (.inl ⟨value, withResponse, rfl⟩))
      · exact .inr (.inr (.inr ⟨value, withResponse, rfl, hfits⟩))
  · obtain ⟨f, hrefused⟩ := exists_refuse p ha
    rw [hrefused]
    exact .inl ⟨idle_of_not_accepts ha, rfl, rfl⟩

theorem respond_indicate (p : Loopback H) (handler : Option H) :
    p.respond (.indicate tx handler) = ({ result := .ok [] }, { p with handler := handler }) := by
  rw [respond, if_pos rfl]

theorem respond_mode (p : Loopback H) (value : Bytes) (withResponse : Bool) :
    p.respond (.write mode value withResponse) =
      ({ result := .ok [] }, { p with bridgeMode := value = [1] }) := by
  rw [respond, write, if_pos rfl]

theorem respond_fitting (p : Loopback H) (h : value.length ≤ chunkLimit) (withResponse : Bool) :
    p.respond (.write rx value withResponse) = p.echo value := by
  have hne : rx ≠ mode := by decide
  rw [respond, write, if_neg hne, if_neg (not_not_intro rfl), if_neg (Nat.not_lt.mpr h)]

theorem echo_off (h : ¬p.bridgeMode = true) (value : Bytes) :
    p.echo value = ({ result := .ok [] }, p) := by
  rw [echo, if_neg h]

/-- In bridge mode a value is counted, and whoever listens is told. -/
theorem echo_on (h : p.bridgeMode = true) (value : Bytes) :
    (p.echo value).2 = { p with echoed := p.echoed + value.length } ∧
      (p.echo value).1.deliveries =
        (p.handler.map fun handler => ⟨handler, value, none⟩).toList := by
  rw [echo, if_pos h]
  cases hp : p.handler <;> exact ⟨by simp, rfl⟩

theorem failure?_echo (p : Loopback H) (value : Bytes) : (p.echo value).1.failure? = none := by
  by_cases hmode : p.bridgeMode = true
  · rw [echo, if_pos hmode]
    cases p.handler <;> rfl
  · rw [echo_off hmode]
    rfl

/-- Whether a request fails does not depend on the state. -/
theorem failure?_eq_none_iff (p : Loopback H) (request : Request H) :
    (p.respond request).1.failure? = none ↔ Accepts request := by
  constructor
  · intro hgood
    by_contra ha
    obtain ⟨f, hrefused⟩ := exists_refuse p ha
    rw [hrefused] at hgood
    cases hgood
  · intro ha
    cases request with
    | services filter => rfl
    | characteristics filter s =>
      obtain rfl : s = service := ha
      rw [respond, if_pos rfl]
      rfl
    | descriptors filter c => rfl
    | indicate c handler =>
      obtain rfl : c = tx := ha
      rw [respond_indicate]
      rfl
    | write c value withResponse =>
      obtain rfl | ⟨rfl, hfits⟩ := ha
      · rw [respond_mode]
        rfl
      · rw [respond_fitting p hfits, failure?_echo]

/-- A request that fails changes nothing and notifies nobody. -/
theorem unchanged_of_failure (h : (p.respond request).1.failure? ≠ none) :
    (p.respond request).2 = p ∧ (p.respond request).1.deliveries = [] := by
  have ha : ¬Accepts request := fun ha => h ((failure?_eq_none_iff p request).mpr ha)
  obtain ⟨f, hrefused⟩ := exists_refuse p ha
  rw [hrefused]
  exact ⟨rfl, rfl⟩

/-- The value that a state echoes on a request. -/
def echoing? (p : Loopback H) (request : Request H) : Option Bytes :=
  if p.bridgeMode then fitting? request else none

theorem echoing?_of_not_fitting (p : Loopback H) (h : fitting? request = none) :
    p.echoing? request = none := by
  rw [echoing?, h, ite_self]

theorem fitting?_mode (value : Bytes) (withResponse : Bool) :
    fitting? (.write mode value withResponse : Request H) = none := by
  have hne : mode ≠ rx := by decide
  rw [fitting?, Request.written?, if_neg hne, Option.filter_none]

theorem fitting?_rx (h : value.length ≤ chunkLimit) (withResponse : Bool) :
    fitting? (.write rx value withResponse : Request H) = some value := by
  rw [fitting?, Request.written?, if_pos rfl, Option.filter_some, decide_eq_true h]
  rfl

/-- Each part of the state is kept by a test of its own. -/
theorem state_respond (p : Loopback H) (request : Request H) :
    (p.respond request).2 =
      { handler := (request.installed? tx).getD p.handler
        bridgeMode := (request.written? mode).elim p.bridgeMode fun value => value = [1]
        echoed := p.echoed + (p.echoing? request).elim 0 List.length } := by
  obtain ⟨hidle, hsame, -⟩ | ⟨handler, rfl⟩ | ⟨value, withResponse, rfl⟩ |
    ⟨value, withResponse, rfl, hfits⟩ := respond_cases p request
  · rw [hsame, hidle.installed, hidle.mode, echoing?_of_not_fitting p hidle.fitting]
    rfl
  · have hfitting : fitting? (.indicate tx handler) = none := rfl
    rw [respond_indicate, echoing?_of_not_fitting p hfitting, Request.installed?, if_pos rfl]
    rfl
  · have hfitting := fitting?_mode (H := H) value withResponse
    rw [respond_mode, echoing?_of_not_fitting p hfitting, Request.written?, if_pos rfl]
    rfl
  · have hne : rx ≠ mode := by decide
    rw [respond_fitting p hfits, Request.written?, if_neg hne, echoing?, fitting?_rx hfits]
    by_cases hmode : p.bridgeMode = true
    · rw [(echo_on hmode value).1, if_pos hmode]
      rfl
    · rw [echo_off hmode, if_neg hmode]
      rfl

/-- What is echoed goes to the handler, if there is one, and nothing else is notified. -/
theorem deliveries_respond (p : Loopback H) (request : Request H) :
    (p.respond request).1.deliveries =
      (p.handler.bind fun handler =>
        (p.echoing? request).map fun value => ⟨handler, value, none⟩).toList := by
  obtain ⟨hidle, -, hquiet⟩ | ⟨handler, rfl⟩ | ⟨value, withResponse, rfl⟩ |
    ⟨value, withResponse, rfl, hfits⟩ := respond_cases p request
  · rw [hquiet, echoing?_of_not_fitting p hidle.fitting]
    cases p.handler <;> rfl
  · have hfitting : fitting? (.indicate tx handler) = none := rfl
    rw [respond_indicate, echoing?_of_not_fitting p hfitting]
    cases p.handler <;> rfl
  · have hfitting := fitting?_mode (H := H) value withResponse
    rw [respond_mode, echoing?_of_not_fitting p hfitting]
    cases p.handler <;> rfl
  · rw [respond_fitting p hfits, echoing?, fitting?_rx hfits]
    by_cases hmode : p.bridgeMode = true
    · rw [(echo_on hmode value).2, if_pos hmode]
      cases p.handler <;> rfl
    · rw [echo_off hmode, if_neg hmode]
      cases p.handler <;> rfl

/-! ## What a state remembers -/

/-- The values echoed so far. -/
def echoes (requests : List (Request H)) : List Bytes := (moments requests).filterMap echo?

/-- A state is what the history makes of it. -/
structure Remembers (past : List (Request H)) (p : Loopback H) : Prop where
  handler : p.handler = listener past
  bridgeMode : p.bridgeMode = true ↔ InBridgeMode past
  echoed : p.echoed = ((echoes past).map List.length).sum

theorem listener_concat (past : List (Request H)) (request : Request H) :
    listener (past ++ [request]) = (request.installed? tx).getD (listener past) := by
  rw [listener, getLast?_filterMap_concat]
  cases request.installed? tx <;> rfl

theorem echoes_concat (past : List (Request H)) (request : Request H) :
    echoes (past ++ [request]) = echoes past ++ (echo? (past, request)).toList := by
  rw [echoes, moments_concat, filterMap_concat, echoes]

theorem remembers_new : Remembers ([] : List (Request H)) {} := ⟨rfl, iff_of_false nofun nofun, rfl⟩

theorem Remembers.echoing? (h : Remembers past p) (request : Request H) :
    p.echoing? request = echo? (past, request) := by
  simp only [Loopback.echoing?, h.bridgeMode, echo?]

/-- A request is one more of the history: an older one counts only where it says nothing. -/
theorem Remembers.respond (h : Remembers past p) (request : Request H) :
    Remembers (past ++ [request]) (p.respond request).2 := by
  rw [state_respond]
  constructor
  · rw [listener_concat, h.handler]
  · rw [InBridgeMode, getLast?_filterMap_concat]
    cases request.written? mode with
    | none => exact h.bridgeMode
    | some value => simp
  · rw [h.echoing?, echoes_concat, h.echoed]
    cases echo? (past, request) <;> simp

theorem Remembers.deliveries (h : Remembers past p) (request : Request H) :
    (p.respond request).1.deliveries = (notice? (past, request)).toList := by
  rw [deliveries_respond, h.handler, h.echoing?, notice?]
  cases listener past <;> cases echo? (past, request) <;> rfl

/-! ## Runs -/

def run (p : Loopback H) : List (Request H) → List (Response H) × Loopback H
  | [] => ([], p)
  | request :: rest =>
    let (response, p) := p.respond request
    let (later, p) := p.run rest
    (response :: later, p)

theorem run_concat (p : Loopback H) (requests : List (Request H)) (request : Request H) :
    p.run (requests ++ [request]) =
      ((p.run requests).1 ++ [((p.run requests).2.respond request).1],
        ((p.run requests).2.respond request).2) := by
  induction requests generalizing p with
  | nil => rfl
  | cons first rest ih => simp only [List.cons_append, run, ih]

theorem remembers_run (requests : List (Request H)) : Remembers requests (run {} requests).2 := by
  induction requests using List.reverseRecOn with
  | nil => exact remembers_new
  | append_singleton requests request ih =>
    rw [run_concat]
    exact ih.respond request

theorem deliveries_run (requests : List (Request H)) :
    (run {} requests).1.flatMap Response.deliveries = (moments requests).filterMap notice? := by
  induction requests using List.reverseRecOn with
  | nil => rfl
  | append_singleton requests request ih =>
    have hlast := (remembers_run requests).deliveries request
    rw [run_concat, List.flatMap_append, ih, List.flatMap_singleton, hlast, moments_concat,
      filterMap_concat]

/-! ## The count as a word -/

/-- In bridge mode the count grows, and the response comes only after that. -/
def checkedEcho (p : Loopback H) (value : Bytes) : Option (Response H × Loopback H) :=
  if p.bridgeMode then do
    let echoed ← Word.add? p.echoed value.length
    return ((p.echo value).1, { p with echoed := echoed })
  else some (p.echo value)

/-- Only an echo adds anything. -/
def checkedRespond (p : Loopback H) : Request H → Option (Response H × Loopback H)
  | .write c value withResponse =>
    if c = rx ∧ value.length ≤ chunkLimit then p.checkedEcho value
    else some (p.respond (.write c value withResponse))
  | request => some (p.respond request)

def checkedRun (p : Loopback H) : List (Request H) → Option (List (Response H) × Loopback H)
  | [] => some ([], p)
  | request :: rest => do
    let (response, p) ← p.checkedRespond request
    let (later, p) ← p.checkedRun rest
    return (response :: later, p)

theorem checkedEcho_eq (h : (p.echo value).2.echoed < Word.limit) :
    p.checkedEcho value = some (p.echo value) := by
  by_cases hmode : p.bridgeMode = true
  · obtain ⟨hstate, -⟩ := echo_on hmode value
    rw [hstate] at h
    rw [checkedEcho, if_pos hmode, Word.add?_eq h, Option.bind_eq_bind, Option.bind_some, ← hstate]
    rfl
  · rw [checkedEcho, if_neg hmode]

theorem checkedRespond_eq (h : (p.respond request).2.echoed < Word.limit) :
    p.checkedRespond request = some (p.respond request) := by
  cases request with
  | write c value withResponse =>
    rw [checkedRespond]
    split_ifs with hc
    · obtain ⟨rfl, hfits⟩ := hc
      rw [respond_fitting p hfits] at h ⊢
      exact checkedEcho_eq h
    · rfl
  | services filter => rfl
  | characteristics filter s => rfl
  | descriptors filter c => rfl
  | indicate c handler => rfl

theorem echoed_le_run (p : Loopback H) (requests : List (Request H)) :
    p.echoed ≤ (p.run requests).2.echoed := by
  induction requests generalizing p with
  | nil => exact Nat.le_refl _
  | cons request rest ih =>
    have hfirst : p.echoed ≤ (p.respond request).2.echoed := by
      rw [state_respond]
      exact Nat.le_add_right _ _
    exact Nat.le_trans hfirst (ih _)

/-- A count that fits in a word at the end fitted all the time. -/
theorem checkedRun_eq (requests : List (Request H))
    (h : (p.run requests).2.echoed < Word.limit) :
    p.checkedRun requests = some (p.run requests) := by
  induction requests generalizing p with
  | nil => rfl
  | cons request rest ih =>
    have hfirst : (p.respond request).2.echoed < Word.limit :=
      Nat.lt_of_le_of_lt (echoed_le_run _ rest) h
    have hrest : (p.respond request).2.checkedRun rest = some _ := ih h
    simp only [checkedRun, checkedRespond_eq hfirst, hrest, Option.bind_eq_bind, Option.bind_some,
      Option.pure_def, run]

/-- What a new peripheral does can be read off the requests made of it. A request that fails changes
nothing and notifies nobody, and whether it fails hangs on the request alone. The handler is the one
installed last, and the mode is on exactly when the last write to the mode characteristic was the
single byte 1. The notifications are, in order, the values written to the receiving characteristic
in bridge mode that fit, each once and as it is to the handler of that moment, if there is one; the
count is the sum of their lengths, whether or not there is one. As long as it fits in a word, no
addition on the way overflows. -/
theorem run_by_history (requests : List (Request H)) :
    let responses := (run {} requests).1
    let p := (run {} requests).2
    (∀ (q : Loopback H) (request : Request H),
      ((q.respond request).1.failure? = none ↔ Accepts request) ∧
      ((q.respond request).1.failure? ≠ none →
        (q.respond request).2 = q ∧ (q.respond request).1.deliveries = [])) ∧
    p.handler = listener requests ∧
    (p.bridgeMode = true ↔ InBridgeMode requests) ∧
    responses.flatMap Response.deliveries = (moments requests).filterMap notice? ∧
    p.echoed = (((moments requests).filterMap echo?).map List.length).sum ∧
    (p.echoed < Word.limit → checkedRun {} requests = some (responses, p)) := by
  intro responses p
  have hremembers := remembers_run requests
  refine ⟨?_, hremembers.handler, hremembers.bridgeMode, deliveries_run requests,
    hremembers.echoed, checkedRun_eq requests⟩
  intro q request
  exact ⟨failure?_eq_none_iff q request, unchanged_of_failure⟩

/-- A listener gives way to another one, and an echo between them is counted but not heard. The
right identifier under a wrong handle installs nobody. -/
theorem run_by_history_of_two_listeners :
    let requests : List (Request Nat) := [.write rx [9] true, .indicate tx (some 1),
      .write mode [1] true, .write rx [7, 8] true, .indicate ⟨.bridgeTx, 0⟩ (some 3),
      .write rx (List.replicate 21 0) true, .indicate tx none, .write rx [4] false,
      .indicate tx (some 2), .write rx [5, 6] false, .write mode [1, 1] true]
    let stranger : Request Nat := .indicate ⟨.bridgeTx, 0⟩ (some 3)
    let q := (run {} (requests.take 4)).2
    ((q.respond stranger).1.failure? = some (.notNotifying .bridgeTx) ∧
      (q.respond stranger).2 = q ∧ (q.respond stranger).1.deliveries = []) ∧
    ¬(run {} requests).2.bridgeMode = true ∧
    (run {} requests).1.flatMap Response.deliveries = [⟨1, [7, 8], none⟩, ⟨2, [5, 6], none⟩] ∧
    (run {} requests).2.echoed = 5 ∧ 5 < Word.limit ∧
    checkedRun {} requests = some (run {} requests) := by
  intro requests stranger q
  obtain ⟨hall, -, hmode, hnotices, hechoed, hchecked⟩ := run_by_history requests
  have hfailure : (q.respond stranger).1.failure? = some (.notNotifying .bridgeTx) := rfl
  have hcount : (run {} requests).2.echoed = 5 := hechoed
  have hword : 5 < Word.limit := by decide
  refine ⟨⟨hfailure, (hall q stranger).2 ?_⟩, fun h => ?_, hnotices, hcount, hword, hchecked ?_⟩
  · rw [hfailure]
    exact Option.some_ne_none _
  · cases hmode.mp h
  · rw [hcount]
    exact hword

end Loopback

end SerialBridge
