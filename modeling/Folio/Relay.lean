import Folio.Highlighter

/-!
# A callback on one thread

A callback that only one thread may run is shared through handles. Every call of it gets a thread of its own, which
holds a handle as well: it opens a channel for its answer, puts a request with this channel into the queue, and waits on
the channel. The thread of the callback takes the oldest request, runs the callback, and sends the answer on the channel
of the request, until there are no handles any more and the queue is empty. Whoever made a call may give up the wait;
the thread of the call goes on all the same.

`step?` says which events are possible and what they change, so every order in which the threads may act is a run of it.
-/

namespace Folio

namespace Relay

/-- What a call gives: a highlight, or the text of an error. -/
abbrev Reply := Except String Highlight

/-- A callback whose answer depends on the source and the language. -/
abbrev Callback := HighlightCall → Reply

/-- A request in the queue, with the channel for its answer. -/
structure Request where
  call : HighlightCall
  channel : Nat
deriving DecidableEq

/-- How far the thread of a call has come: it has started, it has opened its channel, it waits on it after sending the
request, it has the reply, or it has passed the reply on and ended. -/
inductive Stage where
  | begun
  | ready (channel : Nat)
  | waiting (channel : Nat)
  | returned (channel : Nat) (reply : Reply)
  | ended (channel : Nat) (reply : Reply)

/-- How the wait of the caller stands. -/
inductive Wait where
  | pending
  | timedOut
  | got (reply : Reply)

/-- A call. -/
structure Call where
  call : HighlightCall
  stage : Stage := .begun
  wait : Wait := .pending

/-- Does the thread of a call still run? Then it holds a handle. -/
def Call.isAlive (k : Call) : Bool :=
  match k.stage with
  | .ended .. => false
  | _ => true

/-- A caller that has given up gets nothing. -/
def Wait.pass (reply : Reply) : Wait → Wait
  | .pending => .got reply
  | w => w

/-- What the thread of the callback does. -/
inductive Server where
  | idle
  | asking (request : Request)
  | replying (request : Request) (reply : Reply)
  | closed

namespace Server

/-- The request that the thread has taken. -/
def request? : Server → Option Request
  | asking q => some q
  | replying q _ => some q
  | _ => none

def isIdle : Server → Bool
  | idle => true
  | _ => false

def isClosed : Server → Bool
  | closed => true
  | _ => false

end Server

/-- The start or the end of a run of the callback. -/
inductive Mark where
  | start (request : Request)
  | finish (request : Request)
deriving DecidableEq

/-- What may happen. Holders share and release handles and make calls; the thread of a call opens its channel, sends,
receives the reply and delivers it; its caller gives up; the thread of the callback takes a request, comes to its
answer, replies, and closes the queue. -/
inductive Event where
  | share
  | release
  | call (call : HighlightCall)
  | openChannel (place : Nat)
  | send (place : Nat)
  | take
  | answer
  | reply
  | receive (place : Nat)
  | expire (place : Nat)
  | deliver (place : Nat)
  | close

/-- The error of a call that finds the queue closed. -/
def notRunning : Reply := .error "highlighter is no longer running"

/-- The error of a call whose channel is closed without an answer. -/
def droppedRequest : Reply := .error "highlighter dropped the request"

end Relay

/-- The state of a relay: the handles that are held apart from those of calls, all calls, the number of channels that
have been opened, the queue with the oldest request first, the thread of the callback, the replies that lie in their
channels, and the runs of the callback so far. -/
structure Relay where
  holders : Nat := 1
  calls : List Relay.Call := []
  opened : Nat := 0
  queue : List Relay.Request := []
  server : Relay.Server := .idle
  mail : List (Nat × Relay.Reply) := []
  log : List Relay.Mark := []

namespace Relay

variable (r : Relay)

/-- The number of handles. -/
def handles : Nat := r.holders + r.calls.countP Call.isAlive

/-- Can something still be sent on a channel? -/
def hasSender (channel : Nat) : Bool := (r.server.request?.toList ++ r.queue).any fun q => q.channel = channel

def put (place : Nat) (k : Call) : Relay := { r with calls := r.calls.set place k }

/-- The relay after an event, if the event can happen. -/
def step? (h : Callback) : Event → Option Relay
  | .share => if 0 < r.holders then some { r with holders := r.holders + 1 } else none
  | .release => if 0 < r.holders then some { r with holders := r.holders - 1 } else none
  | .call c => if 0 < r.holders then some { r with calls := r.calls ++ [{ call := c }] } else none
  | .openChannel place =>
    match r.calls[place]? with
    | some ⟨c, .begun, w⟩ => some { r.put place ⟨c, .ready r.opened, w⟩ with opened := r.opened + 1 }
    | _ => none
  | .send place =>
    match r.calls[place]? with
    | some ⟨c, .ready n, w⟩ =>
      if r.server.isClosed then some (r.put place ⟨c, .returned n notRunning, w⟩)
      else some { r.put place ⟨c, .waiting n, w⟩ with queue := r.queue ++ [⟨c, n⟩] }
    | _ => none
  | .take =>
    match r.server, r.queue with
    | .idle, q :: rest => some { r with queue := rest, server := .asking q, log := r.log ++ [.start q] }
    | _, _ => none
  | .answer =>
    match r.server with
    | .asking q => some { r with server := .replying q (h q.call), log := r.log ++ [.finish q] }
    | _ => none
  | .reply =>
    match r.server with
    | .replying q reply => some { r with server := .idle, mail := r.mail ++ [(q.channel, reply)] }
    | _ => none
  | .receive place =>
    match r.calls[place]? with
    | some ⟨c, .waiting n, w⟩ =>
      match r.mail.find? fun m => m.1 = n with
      | some (_, reply) =>
        some { r.put place ⟨c, .returned n reply, w⟩ with mail := r.mail.filter fun m => m.1 ≠ n }
      | none => if r.hasSender n then none else some (r.put place ⟨c, .returned n droppedRequest, w⟩)
    | _ => none
  | .expire place =>
    match r.calls[place]? with
    | some ⟨c, s, .pending⟩ => some (r.put place ⟨c, s, .timedOut⟩)
    | _ => none
  | .deliver place =>
    match r.calls[place]? with
    | some ⟨c, .returned n reply, w⟩ => some (r.put place ⟨c, .ended n reply, w.pass reply⟩)
    | _ => none
  | .close =>
    if r.handles = 0 && r.queue.isEmpty && r.server.isIdle then some { r with server := .closed } else none

/-- The relay after events, if they can happen one after the other. -/
def run? (h : Callback) (events : List Event) : Option Relay := events.foldlM (fun r e => r.step? h e) r

end Relay

end Folio
