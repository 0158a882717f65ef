import Folio.Relay
import Mathlib.Data.List.Nodup

/-!
# What belongs to a channel

`Relay.traffic` gathers what there is of a channel in the queue, at the thread of the callback, in the mail and among
the runs of the callback. Every channel belongs to one call, and the stage of the call says what there is of its channel
(`Tracked`): a request that waits, one that is worked at, an answer to it, or nothing any more. Each event changes what
there is of one channel only, so it has to be checked against one call (`Tracked.set`).
-/

namespace Folio.Relay

/-! ### Traffic -/

/-- What there is of a channel: the requests in the queue and at the thread of the callback, the replies, and the
requests that the callback was run for. -/
structure Traffic where
  queued : List Request
  atWork : List Request
  mail : List (Nat × Reply)
  started : List Request

namespace Traffic

/-- Nothing has been sent yet. -/
def none : Traffic := ⟨[], [], [], []⟩

/-- The request is in the queue. -/
def ofQueued (q : Request) : Traffic := ⟨[q], [], [], []⟩

/-- The callback runs for the request, or has run. -/
def ofAtWork (q : Request) : Traffic := ⟨[], [q], [], [q]⟩

/-- The reply is in the channel. -/
def ofAnswered (q : Request) (reply : Reply) : Traffic := ⟨[], [], [(q.channel, reply)], [q]⟩

/-- The reply has been received. -/
def ofDone (q : Request) : Traffic := ⟨[], [], [], [q]⟩

end Traffic

/-- The request of a run of the callback that has started. -/
def Mark.started? : Mark → Option Request
  | .start q => some q
  | .finish _ => none

/-- The requests that the callback was run for. -/
def started (log : List Mark) : List Request := log.filterMap Mark.started?

@[simp] theorem started_append_start (log : List Mark) (q : Request) :
    started (log ++ [.start q]) = started log ++ [q] := List.filterMap_append

@[simp] theorem started_append_finish (log : List Mark) (q : Request) :
    started (log ++ [.finish q]) = started log := List.filterMap_append.trans (List.append_nil _)

/-- What there is of a channel. -/
def traffic (r : Relay) (channel : Nat) : Traffic where
  queued := r.queue.filter fun q => q.channel = channel
  atWork := r.server.request?.toList.filter fun q => q.channel = channel
  mail := r.mail.filter fun m => m.1 = channel
  started := (started r.log).filter fun q => q.channel = channel

/-! ### Calls -/

/-- The channel of a call that has opened one. -/
def Call.channel? (k : Call) : Option Nat :=
  match k.stage with
  | .begun => none
  | .ready n | .waiting n | .returned n _ | .ended n _ => some n

/-- There is of the channel of a call what its stage says, and its replies are the answer of the callback to it. -/
def Stage.Fits (h : Callback) (traffic : Nat → Traffic) (call : HighlightCall) : Stage → Prop
  | .begun => True
  | .ready n => traffic n = .none
  | .waiting n => traffic n = .ofQueued ⟨call, n⟩ ∨ traffic n = .ofAtWork ⟨call, n⟩ ∨
      traffic n = .ofAnswered ⟨call, n⟩ (h call)
  | .returned n reply | .ended n reply => reply = h call ∧ traffic n = .ofDone ⟨call, n⟩

/-- What a caller got is the answer of the callback to its call. -/
def Wait.Fits (h : Callback) (call : HighlightCall) : Wait → Prop
  | .got reply => reply = h call
  | _ => True

structure Call.Fits (h : Callback) (traffic : Nat → Traffic) (k : Call) : Prop where
  stage : k.stage.Fits h traffic k.call
  wait : k.wait.Fits h k.call

/-- A call is not concerned with the channels of others. -/
theorem Call.Fits.congr {h : Callback} {before after : Nat → Traffic} {k : Call} (fits : k.Fits h before)
    (same : ∀ n, k.channel? = some n → after n = before n) : k.Fits h after := by
  obtain ⟨call, stage, wait⟩ := k
  refine ⟨?_, fits.wait⟩
  have stageFits := fits.stage
  cases stage with
  | begun => trivial
  | _ => simpa only [Stage.Fits, same _ rfl] using stageFits

/-- The call of a request that has not been answered waits. -/
theorem Call.Fits.waiting {h : Callback} {traffic : Nat → Traffic} {k : Call} {n : Nat} (fits : k.Fits h traffic)
    (own : k.channel? = some n) (sent : traffic n ≠ .none) (undone : ∀ q, traffic n ≠ .ofDone q) :
    k.stage = .waiting n ∧ (traffic n = .ofQueued ⟨k.call, n⟩ ∨ traffic n = .ofAtWork ⟨k.call, n⟩ ∨
      traffic n = .ofAnswered ⟨k.call, n⟩ (h k.call)) := by
  obtain ⟨call, stage, wait⟩ := k
  have stageFits := fits.stage
  cases stage with
  | begun => cases own
  | ready _ =>
    obtain rfl := Option.some.inj own
    exact absurd stageFits sent
  | waiting _ =>
    obtain rfl := Option.some.inj own
    exact ⟨rfl, stageFits⟩
  | returned _ _ =>
    obtain rfl := Option.some.inj own
    exact absurd stageFits.2 (undone _)
  | ended _ _ =>
    obtain rfl := Option.some.inj own
    exact absurd stageFits.2 (undone _)

/-- The call of a request in the queue waits, and there is nothing else of its channel. -/
theorem Call.Fits.of_queued {h : Callback} {traffic : Nat → Traffic} {k : Call} {n : Nat} (fits : k.Fits h traffic)
    (own : k.channel? = some n) {q : Request} {rest : List Request} (queued : (traffic n).queued = q :: rest) :
    k.stage = .waiting n ∧ traffic n = .ofQueued ⟨k.call, n⟩ := by
  have sent : traffic n ≠ .none := fun none => by simp [none, Traffic.none] at queued
  have undone (q : Request) : traffic n ≠ .ofDone q := fun done => by simp [done, Traffic.ofDone] at queued
  obtain ⟨waiting, first | atWork | answered⟩ := fits.waiting own sent undone
  · exact ⟨waiting, first⟩
  · simp [atWork, Traffic.ofAtWork] at queued
  · simp [answered, Traffic.ofAnswered] at queued

/-- The call of the request that the callback is run for waits, and there is nothing else of its channel. -/
theorem Call.Fits.of_atWork {h : Callback} {traffic : Nat → Traffic} {k : Call} {n : Nat} (fits : k.Fits h traffic)
    (own : k.channel? = some n) {q : Request} {rest : List Request} (atWork : (traffic n).atWork = q :: rest) :
    k.stage = .waiting n ∧ traffic n = .ofAtWork ⟨k.call, n⟩ := by
  have sent : traffic n ≠ .none := fun none => by simp [none, Traffic.none] at atWork
  have undone (q : Request) : traffic n ≠ .ofDone q := fun done => by simp [done, Traffic.ofDone] at atWork
  obtain ⟨waiting, queued | here | answered⟩ := fits.waiting own sent undone
  · simp [queued, Traffic.ofQueued] at atWork
  · exact ⟨waiting, here⟩
  · simp [answered, Traffic.ofAnswered] at atWork

/-- For the channel of a call the callback was not run yet, or once and for the call. -/
theorem Call.Fits.started {h : Callback} {traffic : Nat → Traffic} {k : Call} {n : Nat} (fits : k.Fits h traffic)
    (own : k.channel? = some n) : (traffic n).started = [] ∨ (traffic n).started = [⟨k.call, n⟩] := by
  obtain ⟨call, stage, wait⟩ := k
  have stageFits := fits.stage
  cases stage with
  | begun => cases own
  | ready _ =>
    obtain rfl := Option.some.inj own
    exact Or.inl (congrArg Traffic.started stageFits)
  | waiting _ =>
    obtain rfl := Option.some.inj own
    rcases stageFits with queued | atWork | answered
    · exact Or.inl (congrArg Traffic.started queued)
    · exact Or.inr (congrArg Traffic.started atWork)
    · exact Or.inr (congrArg Traffic.started answered)
  | returned _ _ =>
    obtain rfl := Option.some.inj own
    exact Or.inr (congrArg Traffic.started stageFits.2)
  | ended _ _ =>
    obtain rfl := Option.some.inj own
    exact Or.inr (congrArg Traffic.started stageFits.2)

/-- The channels of calls. -/
def channels (calls : List Call) : List Nat := calls.filterMap Call.channel?

/-- Each channel belongs to one call, and what there is of it fits the call. -/
structure Tracked (h : Callback) (calls : List Call) (opened : Nat) (traffic : Nat → Traffic) : Prop where
  below : ∀ n ∈ channels calls, n < opened
  apart : (channels calls).Nodup
  unowned : ∀ n, n ∉ channels calls → traffic n = .none
  fits : ∀ k ∈ calls, k.Fits h traffic

namespace Tracked

variable {h : Callback} {calls front back : List Call} {k k' : Call} {opened n : Nat} {before after : Nat → Traffic}

theorem start (h : Callback) : Tracked h [] 0 fun _ => .none where
  below := List.forall_mem_nil _
  apart := List.nodup_nil
  unowned _ _ := rfl
  fits := List.forall_mem_nil _

/-- A call that begins has no channel. -/
theorem begin_call (tracked : Tracked h calls opened before) (call : HighlightCall) :
    Tracked h (calls ++ [⟨call, .begun, .pending⟩]) opened before := by
  have same : channels (calls ++ [⟨call, .begun, .pending⟩]) = channels calls := by simp [channels, Call.channel?]
  refine ⟨by rw [same]; exact tracked.below, by rw [same]; exact tracked.apart, by rw [same]; exact tracked.unowned, ?_⟩
  rw [List.forall_mem_append, List.forall_mem_singleton]
  exact ⟨tracked.fits, trivial, trivial⟩

/-- No other call has the channel of a call. -/
theorem others (tracked : Tracked h (front ++ k :: back) opened before) (hn : k.channel? = some n) :
    ∀ j ∈ front ++ back, j.channel? ≠ some n := by
  have apart := tracked.apart
  rw [channels, List.filterMap_append, List.filterMap_cons_some hn, List.nodup_middle, List.nodup_cons,
    ← List.filterMap_append, List.mem_filterMap] at apart
  exact fun j hj same => apart.1 ⟨j, hj, same⟩

/-- The call of a channel that there is something of. -/
theorem exists_owner (tracked : Tracked h calls opened before) (some : before n ≠ .none) :
    ∃ front k back, calls = front ++ k :: back ∧ k.channel? = .some n := by
  have owned : n ∈ channels calls := Classical.byContradiction fun unowned => some (tracked.unowned n unowned)
  obtain ⟨k, hk, hn⟩ := List.mem_filterMap.1 owned
  obtain ⟨front, back, eq⟩ := List.append_of_mem hk
  exact ⟨front, k, back, eq, hn⟩

theorem started_cases (tracked : Tracked h calls opened before) (n : Nat) : (before n).started = [] ∨
    ∃ k ∈ calls, k.channel? = some n ∧ (before n).started = [⟨k.call, n⟩] := by
  by_cases owned : n ∈ channels calls
  · obtain ⟨k, hk, own⟩ := List.mem_filterMap.1 owned
    exact ((tracked.fits k hk).started own).imp_right fun one => ⟨k, hk, own, one⟩
  · exact Or.inl (congrArg Traffic.started (tracked.unowned n owned))

/-- A call goes on, and with it what there is of its channel. -/
theorem set (tracked : Tracked h (front ++ k :: back) opened before) (same : k'.channel? = k.channel?)
    (frame : ∀ n, k.channel? ≠ some n → after n = before n) (fits : k'.Fits h after) :
    Tracked h (front ++ k' :: back) opened after := by
  have channels : channels (front ++ k' :: back) = channels (front ++ k :: back) := by
    simp only [Relay.channels, List.filterMap_append, List.filterMap_cons, same]
  refine ⟨by rw [channels]; exact tracked.below, by rw [channels]; exact tracked.apart, ?_, ?_⟩
  · intro n unowned
    rw [channels] at unowned
    rw [frame n fun own => unowned (List.mem_filterMap.2 ⟨k, by simp, own⟩)]
    exact tracked.unowned n unowned
  · have other : ∀ j ∈ front ++ back, j.Fits h after := by
      intro j hj
      refine (tracked.fits j ?_).congr fun n own => frame n fun hn => tracked.others hn j hj own
      rw [List.mem_append] at hj
      exact List.mem_append.2 (hj.imp_right (List.mem_cons_of_mem k))
    rw [List.forall_mem_append] at other
    exact List.forall_mem_append.2 ⟨other.1, List.forall_mem_cons.2 ⟨fits, other.2⟩⟩

/-- A call opens a channel that there is nothing of. -/
theorem openChannel {call : HighlightCall} {wait : Wait}
    (tracked : Tracked h (front ++ ⟨call, .begun, wait⟩ :: back) opened before) :
    Tracked h (front ++ ⟨call, .ready opened, wait⟩ :: back) (opened + 1) before := by
  have old : channels (front ++ ⟨call, .begun, wait⟩ :: back) = channels front ++ channels back := by
    simp [channels, Call.channel?, List.filterMap_cons]
  have new : channels (front ++ ⟨call, .ready opened, wait⟩ :: back) = channels front ++ opened :: channels back := by
    simp [channels, Call.channel?]
  obtain ⟨below, apart, unowned, fits⟩ := tracked
  rw [old] at below apart unowned
  have fresh : opened ∉ channels front ++ channels back := fun mem => Nat.lt_irrefl _ (below _ mem)
  rw [List.forall_mem_append, List.forall_mem_cons] at fits
  constructor
  · rw [new]
    intro n hn
    rcases List.mem_cons.1 (List.perm_middle.mem_iff.1 hn) with rfl | hn
    · exact Nat.lt_succ_self _
    · exact Nat.lt_succ_of_lt (below n hn)
  · rw [new, List.nodup_middle]
    exact List.nodup_cons.2 ⟨fresh, apart⟩
  · rw [new]
    intro n hn
    exact unowned n fun mem => hn (List.perm_middle.mem_iff.2 (List.mem_cons_of_mem _ mem))
  · rw [List.forall_mem_append, List.forall_mem_cons]
    exact ⟨fits.1, ⟨unowned _ fresh, fits.2.1.wait⟩, fits.2.2⟩

end Tracked

end Folio.Relay
