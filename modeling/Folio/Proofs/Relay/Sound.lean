import Folio.Proofs.Relay.Steps

/-!
# Runs of a relay

Whatever the order of events, the callback serves one request after the other and none twice, every call returns the
answer to its own source and language, and the thread of the callback ends when all handles are gone and all requests
have been served (`sound_of_run?`).
-/

namespace Folio.Relay

variable {h : Callback} {r r' : Relay}

/-! ### Calls in the course of time -/

/-- How a call is found later: it asks for the same, keeps its channel, and a wait that is settled stays as it is. -/
structure Call.Later (k k' : Call) : Prop where
  call : k'.call = k.call
  channel : ∀ n, k.channel? = some n → k'.channel? = some n
  wait : k.wait ≠ .pending → k'.wait = k.wait

theorem Call.Later.refl (k : Call) : k.Later k := ⟨rfl, fun _ own => own, fun _ => rfl⟩

theorem Call.Later.trans {k k' k'' : Call} (first : k.Later k') (rest : k'.Later k'') : k.Later k'' where
  call := rest.call.trans first.call
  channel n own := rest.channel n (first.channel n own)
  wait settled := by
    have same := first.wait settled
    rw [rest.wait (same ▸ settled), same]

/-- All calls are there later, in their places. -/
def Continues (calls calls' : List Call) : Prop :=
  ∀ (place : Nat) (k : Call), calls[place]? = some k → ∃ k', calls'[place]? = some k' ∧ k.Later k'

theorem Continues.refl (calls : List Call) : Continues calls calls := fun _ k there => ⟨k, there, .refl k⟩

theorem continues_put {place : Nat} {k k' : Call} (there : r.calls[place]? = some k) (later : k.Later k') :
    Continues r.calls (r.put place k').calls := by
  intro place' j hj
  by_cases same : place = place'
  · subst same
    obtain rfl := Option.some.inj (there.symm.trans hj)
    exact ⟨k', List.getElem?_set_self (List.getElem?_eq_some_iff.1 there).1, later⟩
  · exact ⟨j, (List.getElem?_set_ne same).trans hj, .refl j⟩

theorem continues_step {e : Event} (hs : Step h r e r') : Continues r.calls r'.calls := by
  cases hs with
  | call _ c =>
    intro place k there
    exact ⟨k, List.getElem?_append_left (List.getElem?_eq_some_iff.1 there).1 ▸ there, .refl k⟩
  | openChannel there =>
    exact continues_put there ⟨rfl, fun _ own => absurd own (Option.some_ne_none _).symm, fun _ => rfl⟩
  | send there | refuse there | receive there | drop there =>
    exact continues_put there ⟨rfl, fun _ own => own, fun _ => rfl⟩
  | expire there => exact continues_put there ⟨rfl, fun _ own => own, fun settled => absurd rfl settled⟩
  | @deliver _ _ _ w _ there =>
    refine continues_put there ⟨rfl, fun _ own => own, fun settled => ?_⟩
    cases w with
    | pending => exact absurd rfl settled
    | _ => rfl
  | _ => exact .refl _

theorem continues_run {es : List Event} (hr : r.run? h es = some r') : Continues r.calls r'.calls := by
  induction es generalizing r with
  | nil =>
    obtain rfl := Option.some.inj hr
    exact .refl _
  | cons e es ih =>
    rw [run?_cons] at hr
    obtain ⟨s, first, rest⟩ := Option.bind_eq_some_iff.1 hr
    intro place k there
    obtain ⟨j, hj, earlier⟩ := continues_step (step?_eq_some_iff.1 first) place k there
    obtain ⟨k', hk', later⟩ := ih rest place j hj
    exact ⟨k', hk', earlier.trans later⟩

/-! ### What a run keeps to -/

/-- What holds of a relay at any time. -/
structure Sound (h : Callback) (r : Relay) : Prop where
  /-- The callback runs for one request after the other, and for none twice. -/
  serial : ∃ done : List Request, (done.map (·.channel)).Nodup ∧ (r.log = runs done ∨
    ∃ q : Request, q.channel ∉ done.map (·.channel) ∧ r.log = runs done ++ [.start q])
  /-- It runs for nothing but requests of calls. -/
  asked : ∀ q ∈ started r.log, ∃ k ∈ r.calls, k.call = q.call ∧ k.channel? = some q.channel
  /-- Calls share no channel, whether somebody waits for them or not. -/
  apart : ∀ (i j : Nat) (k k' : Call) (n : Nat), r.calls[i]? = some k → r.calls[j]? = some k' →
    k.channel? = some n → k'.channel? = some n → i = j
  /-- A call returns the answer to its own request. -/
  returned : ∀ k ∈ r.calls, ∀ n reply, k.stage = .returned n reply ∨ k.stage = .ended n reply →
    reply = h k.call ∧ .finish ⟨k.call, n⟩ ∈ r.log
  /-- What a caller gets is the answer to its call. -/
  got : ∀ k ∈ r.calls, ∀ reply, k.wait = .got reply → reply = h k.call
  /-- At the end there are no handles, and every request has been served. -/
  closed : r.server = .closed → r.handles = 0 ∧ r.queue = [] ∧
    ∀ k ∈ r.calls, ∃ n, k.stage = .ended n (h k.call) ∧ .finish ⟨k.call, n⟩ ∈ r.log

theorem started_runs (done : List Request) : started (runs done) = done := by
  induction done with
  | nil => rfl
  | cons q done ih => exact congrArg (q :: ·) ih

namespace Inv

/-- The requests that the callback was run for: those it has finished, and the one that it runs for. -/
theorem started_eq (inv : Inv h r) : ∃ done, r.log = runs done ++ r.server.running ∧
    started r.log = done ++ started r.server.running := by
  obtain ⟨done, log⟩ := inv.serial
  refine ⟨done, log, ?_⟩
  rw [log, started, List.filterMap_append]
  exact congrArg (· ++ _) (started_runs done)

/-- The callback is run for no channel twice. -/
theorem nodup_started (inv : Inv h r) : ((started r.log).map (·.channel)).Nodup := by
  rw [List.nodup_iff_count_le_one]
  intro n
  have count : ((started r.log).map (·.channel)).count n = (r.traffic n).started.length := by
    rw [List.count_eq_countP, List.countP_map, List.countP_eq_length_filter]
    rfl
  rw [count]
  rcases inv.tracked.started_cases n with none | ⟨k, -, -, one⟩
  · rw [none]
    exact Nat.zero_le 1
  · rw [one]
    exact Nat.le_refl 1

theorem serial_sound (inv : Inv h r) : ∃ done : List Request, (done.map (·.channel)).Nodup ∧ (r.log = runs done ∨
    ∃ q : Request, q.channel ∉ done.map (·.channel) ∧ r.log = runs done ++ [.start q]) := by
  obtain ⟨done, log, all⟩ := inv.started_eq
  have nodup := inv.nodup_started
  rw [all] at nodup
  cases server : r.server with
  | asking q =>
    rw [server] at log nodup
    change ((done ++ [q]).map (·.channel)).Nodup at nodup
    rw [List.map_append, List.map_singleton, List.nodup_append] at nodup
    exact ⟨done, nodup.1, Or.inr ⟨q, fun mem => nodup.2.2 _ mem _ (List.mem_singleton_self _) rfl, log⟩⟩
  | _ =>
    rw [server] at log nodup
    change ((done ++ ([] : List Request)).map (·.channel)).Nodup at nodup
    rw [List.append_nil] at nodup
    exact ⟨done, nodup, Or.inl (log.trans (List.append_nil _))⟩

/-- When there is nothing of a channel any more, the callback has finished for it. -/
theorem finished (inv : Inv h r) {q : Request} (done : r.traffic q.channel = .ofDone q) : .finish q ∈ r.log := by
  obtain ⟨finished, log, all⟩ := inv.started_eq
  have mem : q ∈ (started r.log).filter fun p => p.channel = q.channel := by
    rw [show ((started r.log).filter fun p => p.channel = q.channel) = [q] from congrArg Traffic.started done]
    exact List.mem_singleton_self q
  have here := (List.mem_filter.1 mem).1
  rw [all, List.mem_append] at here
  rw [log, List.mem_append]
  rcases here with here | here
  · exact Or.inl (List.mem_flatMap.2 ⟨q, here, by simp⟩)
  · -- the callback is not run for the channel now
    have idle : (r.server.request?.toList.filter fun p => p.channel = q.channel) = [] := congrArg Traffic.atWork done
    cases server : r.server with
    | asking p =>
      rw [server] at here idle
      obtain rfl := List.mem_singleton.1 here
      simp [Server.request?] at idle
    | _ =>
      rw [server] at here
      cases here

theorem returned (inv : Inv h r) {k : Call} (hk : k ∈ r.calls) {n : Nat} {reply : Reply}
    (stage : k.stage = .returned n reply ∨ k.stage = .ended n reply) :
    reply = h k.call ∧ .finish ⟨k.call, n⟩ ∈ r.log := by
  have fits := (inv.tracked.fits k hk).stage
  rcases stage with stage | stage
  · rw [stage] at fits
    exact ⟨fits.1, inv.finished fits.2⟩
  · rw [stage] at fits
    exact ⟨fits.1, inv.finished fits.2⟩

theorem sound (inv : Inv h r) : Sound h r where
  serial := inv.serial_sound
  asked q hq := by
    have here : q ∈ (r.traffic q.channel).started := List.mem_filter.2 ⟨hq, decide_eq_true rfl⟩
    rcases inv.tracked.started_cases q.channel with none | ⟨k, hk, own, one⟩
    · rw [none] at here
      cases here
    · rw [one, List.mem_singleton] at here
      exact ⟨k, hk, by rw [here], own⟩
  apart i j k k' n hi hj own own' := by
    have apart := inv.tracked.apart
    rw [channels, List.Nodup, List.pairwise_filterMap, List.pairwise_iff_getElem] at apart
    obtain ⟨lt, rfl⟩ := List.getElem?_eq_some_iff.1 hi
    obtain ⟨lt', rfl⟩ := List.getElem?_eq_some_iff.1 hj
    rcases Nat.lt_trichotomy i j with less | same | more
    · exact absurd rfl (apart i j lt lt' less n own n own')
    · exact same
    · exact absurd rfl (apart j i lt' lt more n own' n own)
  returned k hk n reply := inv.returned hk
  got k hk reply wait := by
    have fits := (inv.tracked.fits k hk).wait
    rwa [wait] at fits
  closed server := by
    obtain ⟨holders, queue, ended⟩ := inv.closed (by rw [server]; rfl)
    refine ⟨?_, queue, fun k hk => ?_⟩
    · rw [Relay.handles, holders, List.countP_eq_zero.2 ended]
    · have gone := ended k hk
      obtain ⟨call, stage, wait⟩ := k
      cases stage with
      | ended n reply =>
        obtain ⟨own, finish⟩ := inv.returned hk (Or.inr rfl)
        exact ⟨n, by rw [own], finish⟩
      | _ => exact absurd rfl gone

end Inv

/-- Whatever happens in a run, and whatever happens after it, the relay is sound, and a caller that has given up stays
without an answer. -/
theorem sound_of_run? (h : Callback) {before after : List Event} (hr : ({} : Relay).run? h before = some r)
    (hr' : r.run? h after = some r') : Sound h r' ∧ Continues r.calls r'.calls :=
  ⟨((Inv.start h).run hr |>.run hr').sound, continues_run hr'⟩

/-- A callback that knows one language. -/
def echoing : Callback := fun c => if c.language = "rust" then .ok (.markup c.source) else .ok .unsupported

/-- Two calls wait, and the caller of the first one has given up. -/
def givenUp : Relay where
  holders := 2
  calls := [⟨⟨"fn", "rust"⟩, .waiting 1, .timedOut⟩, ⟨⟨"ls", "sh"⟩, .waiting 0, .pending⟩]
  opened := 2
  queue := [⟨⟨"fn", "rust"⟩, 1⟩, ⟨⟨"ls", "sh"⟩, 0⟩]

/-- Both have been served. -/
def served : Relay where
  holders := 0
  calls := [⟨⟨"fn", "rust"⟩, .ended 1 (.ok (.markup "fn")), .timedOut⟩,
    ⟨⟨"ls", "sh"⟩, .ended 0 (.ok .unsupported), .got (.ok .unsupported)⟩]
  opened := 2
  server := .closed
  log := runs [⟨⟨"fn", "rust"⟩, 1⟩, ⟨⟨"ls", "sh"⟩, 0⟩]

theorem sound_served :
    let before : List Event := [.share, .call ⟨"fn", "rust"⟩, .call ⟨"ls", "sh"⟩, .openChannel 1, .openChannel 0,
      .send 0, .send 1, .expire 0]
    let after : List Event := [.take, .answer, .reply, .receive 0, .take, .deliver 0, .answer, .reply, .receive 1,
      .deliver 1, .release, .release, .close]
    ({} : Relay).run? echoing before = some givenUp ∧ givenUp.run? echoing after = some served ∧ Sound echoing served ∧
      Continues givenUp.calls served.calls := by
  intro before after
  have first : ({} : Relay).run? echoing before = some givenUp := rfl
  have rest : givenUp.run? echoing after = some served := rfl
  exact ⟨first, rest, sound_of_run? echoing first rest⟩

end Folio.Relay
