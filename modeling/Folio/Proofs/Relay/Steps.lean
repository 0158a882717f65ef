import Folio.Proofs.Relay.Traffic

/-!
# Steps of a relay

`Step` has the rules that `step?` follows (`step?_eq_some_iff`). What a step needs of the state before it and leaves
behind is `Inv`: what there is of a channel fits its call, the thread of the callback works at one request, and once it
has ended there are no handles. It holds at the start and is kept by every rule (`Inv.step`), so it holds throughout a
run (`Inv.run`), and two rules never apply: no call finds the queue closed or loses its request.
-/

namespace Folio.Relay

/-! ### Rules -/

/-- How a relay may go on from a state. -/
inductive Step (h : Callback) (r : Relay) : Event → Relay → Prop
  | share (held : 0 < r.holders) : Step h r .share { r with holders := r.holders + 1 }
  | release (held : 0 < r.holders) : Step h r .release { r with holders := r.holders - 1 }
  | call (held : 0 < r.holders) (c : HighlightCall) : Step h r (.call c) { r with calls := r.calls ++ [{ call := c }] }
  | openChannel {place : Nat} {c : HighlightCall} {w : Wait} (there : r.calls[place]? = some ⟨c, .begun, w⟩) :
      Step h r (.openChannel place) { r.put place ⟨c, .ready r.opened, w⟩ with opened := r.opened + 1 }
  | send {place n : Nat} {c : HighlightCall} {w : Wait} (there : r.calls[place]? = some ⟨c, .ready n, w⟩)
      (running : ¬ r.server.isClosed) :
      Step h r (.send place) { r.put place ⟨c, .waiting n, w⟩ with queue := r.queue ++ [⟨c, n⟩] }
  | refuse {place n : Nat} {c : HighlightCall} {w : Wait} (there : r.calls[place]? = some ⟨c, .ready n, w⟩)
      (closed : r.server.isClosed) : Step h r (.send place) (r.put place ⟨c, .returned n notRunning, w⟩)
  | take {q : Request} {rest : List Request} (idle : r.server = .idle) (queue : r.queue = q :: rest) :
      Step h r .take { r with queue := rest, server := .asking q, log := r.log ++ [.start q] }
  | answer {q : Request} (asking : r.server = .asking q) :
      Step h r .answer { r with server := .replying q (h q.call), log := r.log ++ [.finish q] }
  | reply {q : Request} {reply : Reply} (replying : r.server = .replying q reply) :
      Step h r .reply { r with server := .idle, mail := r.mail ++ [(q.channel, reply)] }
  | receive {place n m : Nat} {c : HighlightCall} {w : Wait} {reply : Reply}
      (there : r.calls[place]? = some ⟨c, .waiting n, w⟩) (found : (r.mail.find? fun m => m.1 = n) = some (m, reply)) :
      Step h r (.receive place)
        { r.put place ⟨c, .returned n reply, w⟩ with mail := r.mail.filter fun m => m.1 ≠ n }
  | drop {place n : Nat} {c : HighlightCall} {w : Wait} (there : r.calls[place]? = some ⟨c, .waiting n, w⟩)
      (missing : (r.mail.find? fun m => m.1 = n) = none) (noSender : ¬ r.hasSender n) :
      Step h r (.receive place) (r.put place ⟨c, .returned n droppedRequest, w⟩)
  | expire {place : Nat} {c : HighlightCall} {s : Stage} (there : r.calls[place]? = some ⟨c, s, .pending⟩) :
      Step h r (.expire place) (r.put place ⟨c, s, .timedOut⟩)
  | deliver {place n : Nat} {c : HighlightCall} {w : Wait} {reply : Reply}
      (there : r.calls[place]? = some ⟨c, .returned n reply, w⟩) :
      Step h r (.deliver place) (r.put place ⟨c, .ended n reply, w.pass reply⟩)
  | close (handles : r.handles = 0) (queue : r.queue = []) (idle : r.server = .idle) :
      Step h r .close { r with server := .closed }

theorem Server.isIdle_iff {s : Server} : s.isIdle = true ↔ s = .idle := by
  cases s <;> simp [isIdle]

theorem step?_eq_some_iff {h : Callback} {r r' : Relay} {e : Event} : r.step? h e = some r' ↔ Step h r e r' := by
  constructor
  · intro hs
    cases e with
    | share =>
      obtain ⟨held, eq⟩ := Option.ite_none_right_eq_some.1 hs
      obtain rfl := Option.some.inj eq
      exact .share held
    | release =>
      obtain ⟨held, eq⟩ := Option.ite_none_right_eq_some.1 hs
      obtain rfl := Option.some.inj eq
      exact .release held
    | call c =>
      obtain ⟨held, eq⟩ := Option.ite_none_right_eq_some.1 hs
      obtain rfl := Option.some.inj eq
      exact .call held c
    | close =>
      obtain ⟨ready, eq⟩ := Option.ite_none_right_eq_some.1 hs
      obtain rfl := Option.some.inj eq
      rw [Bool.and_eq_true, Bool.and_eq_true, decide_eq_true_iff, List.isEmpty_iff, Server.isIdle_iff] at ready
      exact .close ready.1.1 ready.1.2 ready.2
    | openChannel place =>
      simp only [step?] at hs
      split at hs
      · obtain rfl := Option.some.inj hs
        exact .openChannel ‹_›
      · cases hs
    | send place =>
      simp only [step?] at hs
      split at hs
      · split at hs
        · obtain rfl := Option.some.inj hs
          exact .refuse ‹_› ‹_›
        · obtain rfl := Option.some.inj hs
          exact .send ‹_› ‹_›
      · cases hs
    | take =>
      simp only [step?] at hs
      split at hs
      · obtain rfl := Option.some.inj hs
        exact .take ‹_› ‹_›
      · cases hs
    | answer =>
      simp only [step?] at hs
      split at hs
      · obtain rfl := Option.some.inj hs
        exact .answer ‹_›
      · cases hs
    | reply =>
      simp only [step?] at hs
      split at hs
      · obtain rfl := Option.some.inj hs
        exact .reply ‹_›
      · cases hs
    | receive place =>
      simp only [step?] at hs
      split at hs
      · split at hs
        · obtain rfl := Option.some.inj hs
          exact .receive ‹_› ‹_›
        · obtain ⟨noSender, eq⟩ := Option.ite_none_left_eq_some.1 hs
          obtain rfl := Option.some.inj eq
          exact .drop ‹_› ‹_› noSender
      · cases hs
    | expire place =>
      simp only [step?] at hs
      split at hs
      · obtain rfl := Option.some.inj hs
        exact .expire ‹_›
      · cases hs
    | deliver place =>
      simp only [step?] at hs
      split at hs
      · obtain rfl := Option.some.inj hs
        exact .deliver ‹_›
      · cases hs
  · intro hs
    cases hs with
    | share held => exact if_pos held
    | release held => exact if_pos held
    | call held c => exact if_pos held
    | openChannel there => simp only [step?, there]
    | send there running => simp only [step?, there, if_neg running]
    | refuse there closed => simp only [step?, there, if_pos closed]
    | take idle queue => simp only [step?, idle, queue]
    | answer asking => simp only [step?, asking]
    | reply replying => simp only [step?, replying]
    | receive there found => simp only [step?, there, found]
    | drop there missing noSender => simp only [step?, there, missing, if_neg noSender]
    | expire there => simp only [step?, there]
    | deliver there => simp only [step?, there]
    | close handles queue idle => simp [step?, handles, queue, Server.isIdle_iff.2 idle]

/-! ### The invariant -/

/-- The marks of runs of the callback, one after the other. -/
def runs (done : List Request) : List Mark := done.flatMap fun q => [.start q, .finish q]

/-- The mark of the run that is under way. -/
def Server.running : Server → List Mark
  | .asking q => [.start q]
  | _ => []

/-- What every step keeps. -/
structure Inv (h : Callback) (r : Relay) : Prop where
  tracked : Tracked h r.calls r.opened r.traffic
  answer : ∀ q reply, r.server = .replying q reply → reply = h q.call
  serial : ∃ done, r.log = runs done ++ r.server.running
  closed : r.server.isClosed → r.holders = 0 ∧ r.queue = [] ∧ ∀ k ∈ r.calls, ¬ k.isAlive

namespace Inv

variable {h : Callback} {r : Relay} {k : Call} {place n : Nat} {c : HighlightCall} {w : Wait} {q : Request}
  {rest : List Request} {reply : Reply}

theorem start (h : Callback) : Inv h {} where
  tracked := .start h
  answer := nofun
  serial := ⟨[], rfl⟩
  closed := nofun

/-! ### Handles -/

theorem share (inv : Inv h r) (held : 0 < r.holders) (holders : Nat) : Inv h { r with holders } where
  tracked := inv.tracked
  answer := inv.answer
  serial := inv.serial
  closed closed := absurd (inv.closed closed).1 (Nat.ne_of_gt held)

theorem call (inv : Inv h r) (held : 0 < r.holders) (c : HighlightCall) :
    Inv h { r with calls := r.calls ++ [{ call := c }] } where
  tracked := inv.tracked.begin_call c
  answer := inv.answer
  serial := inv.serial
  closed closed := absurd (inv.closed closed).1 (Nat.ne_of_gt held)

/-! ### Threads of calls -/

/-- While the thread of a call runs, the queue is open. -/
theorem not_isClosed (inv : Inv h r) (there : r.calls[place]? = some k) (alive : k.isAlive) : ¬ r.server.isClosed :=
  fun closed => (inv.closed closed).2.2 k (List.mem_of_getElem? there) alive

theorem fits (inv : Inv h r) (there : r.calls[place]? = some k) : k.Fits h r.traffic :=
  inv.tracked.fits k (List.mem_of_getElem? there)

theorem split_of_getElem? (there : r.calls[place]? = some k) (k' : Call) :
    ∃ front back, r.calls = front ++ k :: back ∧ (r.put place k').calls = front ++ k' :: back := by
  obtain ⟨lt, rfl⟩ := List.getElem?_eq_some_iff.1 there
  obtain ⟨front, back, eq, -, set⟩ := List.exists_of_set lt
  exact ⟨front, back, eq, set⟩

/-- A call goes on, and with it what there is of its channel. -/
theorem tracked_put (inv : Inv h r) (there : r.calls[place]? = some k) {k' : Call} {after : Nat → Traffic}
    (same : k'.channel? = k.channel?) (frame : ∀ n, k.channel? ≠ some n → after n = r.traffic n)
    (fits : k'.Fits h after) : Tracked h (r.put place k').calls r.opened after := by
  obtain ⟨front, back, eq, set⟩ := split_of_getElem? there k'
  have tracked := inv.tracked
  rw [eq] at tracked
  rw [set]
  exact tracked.set same frame fits

theorem openChannel (inv : Inv h r) (there : r.calls[place]? = some ⟨c, .begun, w⟩) :
    Inv h { r.put place ⟨c, .ready r.opened, w⟩ with opened := r.opened + 1 } where
  tracked := by
    obtain ⟨front, back, eq, set⟩ := split_of_getElem? there ⟨c, .ready r.opened, w⟩
    have tracked := inv.tracked
    rw [eq] at tracked
    have after := tracked.openChannel
    rw [← set] at after
    exact after
  answer := inv.answer
  serial := inv.serial
  closed closed := absurd closed (inv.not_isClosed there rfl)

theorem send (inv : Inv h r) (there : r.calls[place]? = some ⟨c, .ready n, w⟩) :
    Inv h { r.put place ⟨c, .waiting n, w⟩ with queue := r.queue ++ [⟨c, n⟩] } where
  tracked := by
    refine inv.tracked_put there rfl (fun m other => ?_) ⟨Or.inl ?_, (inv.fits there).wait⟩
    · have ne : n ≠ m := fun eq => other (congrArg some eq)
      simp [traffic, put, ne]
    · have none : r.traffic n = .none := (inv.fits there).stage
      simp only [traffic, Traffic.none, Traffic.mk.injEq] at none
      obtain ⟨queued, atWork, mail, started⟩ := none
      simp [traffic, put, Traffic.ofQueued, queued, atWork, mail, started]
  answer := inv.answer
  serial := inv.serial
  closed closed := absurd closed (inv.not_isClosed there rfl)

/-- The reply that a call finds in its channel is the answer to it. -/
theorem receive (inv : Inv h r) (there : r.calls[place]? = some ⟨c, .waiting n, w⟩) {m : Nat}
    (found : (r.mail.find? fun m => m.1 = n) = some (m, reply)) :
    Inv h { r.put place ⟨c, .returned n reply, w⟩ with mail := r.mail.filter fun m => m.1 ≠ n } where
  tracked := by
    have first : (r.traffic n).mail.head? = some (m, reply) := by rw [← found, ← List.head?_filter]; rfl
    refine inv.tracked_put there rfl (fun m other => ?_) ⟨?_, (inv.fits there).wait⟩
    · have ne : n ≠ m := fun eq => other (congrArg some eq)
      have kept : (r.mail.filter fun e => e.1 ≠ n).filter (fun e => e.1 = m) = r.mail.filter fun e => e.1 = m := by
        rw [List.filter_filter]
        exact List.filter_congr fun e _ => by by_cases eq : e.1 = m <;> simp [eq, ne.symm]
      simp only [traffic, put, kept]
    · rcases (inv.fits there).stage with queued | atWork | answered
      · simp [queued, Traffic.ofQueued] at first
      · simp [atWork, Traffic.ofAtWork] at first
      · rw [answered] at first
        obtain ⟨rfl, rfl⟩ := Prod.mk.inj (Option.some.inj first)
        simp only [traffic, Traffic.ofAnswered, Traffic.mk.injEq] at answered
        obtain ⟨queued, atWork, -, started⟩ := answered
        exact ⟨rfl, by simp [traffic, put, Traffic.ofDone, queued, atWork, started]⟩
  answer := inv.answer
  serial := inv.serial
  closed closed := absurd closed (inv.not_isClosed there rfl)

/-- A call that waits has its request or its answer on the way. -/
theorem hasSender (inv : Inv h r) (there : r.calls[place]? = some ⟨c, .waiting n, w⟩)
    (missing : (r.mail.find? fun m => m.1 = n) = none) : r.hasSender n := by
  have empty : (r.traffic n).mail.head? = none := by rw [← missing, ← List.head?_filter]; rfl
  rw [Relay.hasSender, List.any_append, Bool.or_eq_true, List.any_eq_true, List.any_eq_true]
  rcases (inv.fits there).stage with queued | atWork | answered
  · have here : ⟨c, n⟩ ∈ r.queue.filter fun q => q.channel = n := by
      rw [show (r.queue.filter fun q => q.channel = n) = [⟨c, n⟩] from congrArg Traffic.queued queued]
      exact List.mem_cons_self
    exact Or.inr ⟨_, List.mem_filter.1 here⟩
  · have here : ⟨c, n⟩ ∈ r.server.request?.toList.filter fun q => q.channel = n := by
      rw [show (r.server.request?.toList.filter fun q => q.channel = n) = [⟨c, n⟩] from congrArg Traffic.atWork atWork]
      exact List.mem_cons_self
    exact Or.inl ⟨_, List.mem_filter.1 here⟩
  · simp [answered, Traffic.ofAnswered] at empty

theorem expire {s : Stage} (inv : Inv h r) (there : r.calls[place]? = some ⟨c, s, .pending⟩) :
    Inv h (r.put place ⟨c, s, .timedOut⟩) where
  tracked := inv.tracked_put there rfl (fun _ _ => rfl) ⟨(inv.fits there).stage, trivial⟩
  answer := inv.answer
  serial := inv.serial
  closed closed := by
    obtain ⟨holders, queue, ended⟩ := inv.closed closed
    refine ⟨holders, queue, fun k hk => ?_⟩
    rcases List.mem_or_eq_of_mem_set hk with hk | rfl
    · exact ended k hk
    · exact ended ⟨c, s, .pending⟩ (List.mem_of_getElem? there)

theorem deliver (inv : Inv h r) (there : r.calls[place]? = some ⟨c, .returned n reply, w⟩) :
    Inv h (r.put place ⟨c, .ended n reply, w.pass reply⟩) where
  tracked := by
    refine inv.tracked_put there rfl (fun _ _ => rfl) ⟨(inv.fits there).stage, ?_⟩
    have own : reply = h c := (inv.fits there).stage.1
    cases w with
    | pending => exact own
    | timedOut => trivial
    | got _ => exact (inv.fits there).wait
  answer := inv.answer
  serial := inv.serial
  closed closed := absurd closed (inv.not_isClosed there rfl)

/-! ### The thread of the callback -/

/-- The thread of the callback changes what there is of one channel. -/
theorem tracked_server (inv : Inv h r) {after : Nat → Traffic} (sent : r.traffic n ≠ .none)
    (frame : ∀ m, n ≠ m → after m = r.traffic m)
    (step : ∀ k : Call, k.channel? = some n → k.Fits h r.traffic → k.Fits h after) :
    Tracked h r.calls r.opened after := by
  have tracked := inv.tracked
  obtain ⟨front, k, back, eq, own⟩ := tracked.exists_owner sent
  rw [eq] at tracked ⊢
  refine tracked.set rfl (fun m other => frame m fun same => other ?_) (step k own (tracked.fits k (by simp)))
  rw [own, same]

theorem take (inv : Inv h r) (idle : r.server = .idle) (queue : r.queue = q :: rest) :
    Inv h { r with queue := rest, server := .asking q, log := r.log ++ [.start q] } where
  tracked := by
    have queued : (r.traffic q.channel).queued = q :: rest.filter fun p => p.channel = q.channel := by
      simp [traffic, queue]
    refine inv.tracked_server (n := q.channel) ?_ (fun m other => ?_) fun k own fits => ?_
    · intro none
      simp [none, Traffic.none] at queued
    · simp [traffic, queue, idle, Server.request?, other]
    · obtain ⟨waiting, here⟩ := fits.of_queued own queued
      obtain ⟨request, none⟩ := List.cons_eq_cons.1 (queued.symm.trans (congrArg Traffic.queued here))
      have mail : (r.mail.filter fun m => m.1 = q.channel) = [] := congrArg Traffic.mail here
      have started : ((started r.log).filter fun p => p.channel = q.channel) = [] := congrArg Traffic.started here
      refine ⟨?_, fits.wait⟩
      rw [waiting]
      refine Or.inr (Or.inl ?_)
      rw [← request]
      simp [traffic, Traffic.ofAtWork, Server.request?, none, mail, started]
  answer := nofun
  serial := by
    obtain ⟨done, log⟩ := inv.serial
    exact ⟨done, by rw [log, idle]; simp [Server.running]⟩
  closed := nofun

theorem answering (inv : Inv h r) (asking : r.server = .asking q) :
    Inv h { r with server := .replying q (h q.call), log := r.log ++ [.finish q] } where
  tracked := by
    have same : ({ r with server := .replying q (h q.call), log := r.log ++ [.finish q] } : Relay).traffic =
        r.traffic := by
      funext m
      simp [traffic, asking, Server.request?]
    rw [same]
    exact inv.tracked
  answer := by
    rintro _ _ ⟨⟩
    rfl
  serial := by
    obtain ⟨done, log⟩ := inv.serial
    exact ⟨done ++ [q], by rw [log, asking]; simp [runs, Server.running]⟩
  closed := nofun

theorem replying (inv : Inv h r) (replying : r.server = .replying q reply) :
    Inv h { r with server := .idle, mail := r.mail ++ [(q.channel, reply)] } where
  tracked := by
    have atWork : (r.traffic q.channel).atWork = [q] := by simp [traffic, replying, Server.request?]
    refine inv.tracked_server (n := q.channel) ?_ (fun m other => ?_) fun k own fits => ?_
    · intro none
      simp [none, Traffic.none] at atWork
    · simp [traffic, replying, Server.request?, other]
    · obtain ⟨waiting, here⟩ := fits.of_atWork own atWork
      obtain ⟨request, -⟩ := List.cons_eq_cons.1 (atWork.symm.trans (congrArg Traffic.atWork here))
      have answer : reply = h k.call := by rw [inv.answer q reply replying, request]
      have queued : (r.queue.filter fun p => p.channel = q.channel) = [] := congrArg Traffic.queued here
      have mail : (r.mail.filter fun m => m.1 = q.channel) = [] := congrArg Traffic.mail here
      have started : ((started r.log).filter fun p => p.channel = q.channel) = [q] := by
        rw [request]
        exact congrArg Traffic.started here
      refine ⟨?_, fits.wait⟩
      rw [waiting]
      refine Or.inr (Or.inr ?_)
      rw [← request, ← answer]
      simp [traffic, Traffic.ofAnswered, Server.request?, queued, mail, started]
  answer := nofun
  serial := by
    obtain ⟨done, log⟩ := inv.serial
    exact ⟨done, by rw [log, replying]; rfl⟩
  closed := nofun

theorem close (inv : Inv h r) (idle : r.server = .idle) (queue : r.queue = []) (handles : r.handles = 0) :
    Inv h { r with server := .closed } where
  tracked := by
    have same : ({ r with server := .closed } : Relay).traffic = r.traffic := by
      funext m
      simp [traffic, idle, Server.request?]
    rw [same]
    exact inv.tracked
  answer := nofun
  serial := by
    obtain ⟨done, log⟩ := inv.serial
    exact ⟨done, by rw [log, idle]; rfl⟩
  closed _ := by
    rw [Relay.handles, Nat.add_eq_zero_iff, List.countP_eq_zero] at handles
    exact ⟨handles.1, queue, handles.2⟩

/-! ### Steps -/

theorem step {r' : Relay} {e : Event} (inv : Inv h r) (hs : Step h r e r') : Inv h r' := by
  cases hs with
  | share held => exact inv.share held _
  | release held => exact inv.share held _
  | call held c => exact inv.call held c
  | openChannel there => exact inv.openChannel there
  | send there _ => exact inv.send there
  | refuse there closed => exact absurd closed (inv.not_isClosed there rfl)
  | take idle queue => exact inv.take idle queue
  | answer asking => exact inv.answering asking
  | reply replying => exact inv.replying replying
  | receive there found => exact inv.receive there found
  | drop there missing noSender => exact absurd (inv.hasSender there missing) noSender
  | expire there => exact inv.expire there
  | deliver there => exact inv.deliver there
  | close handles queue idle => exact inv.close idle queue handles

end Inv

theorem run?_cons (r : Relay) (h : Callback) (e : Event) (es : List Event) :
    r.run? h (e :: es) = (r.step? h e).bind fun r => r.run? h es := List.foldlM_cons

theorem Inv.run {h : Callback} {r r' : Relay} {es : List Event} (inv : Inv h r) (hr : r.run? h es = some r') :
    Inv h r' := by
  induction es generalizing r with
  | nil =>
    obtain rfl := Option.some.inj hr
    exact inv
  | cons e es ih =>
    rw [run?_cons] at hr
    obtain ⟨s, first, rest⟩ := Option.bind_eq_some_iff.1 hr
    exact ih (inv.step (step?_eq_some_iff.1 first)) rest

end Folio.Relay
