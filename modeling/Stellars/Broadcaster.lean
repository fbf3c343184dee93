import Stellars.GuardedRuns

/-!
# The broadcaster

The API listens to Postgres on one client, and replaces the client when it fails. One
flag says whether the current client works, but the events of every client there ever was
clear it. A late event of a client that has been replaced starts a second reconnection,
and the client that works is then left listening beside its replacement.
-/
namespace Stellars

inductive Link
  | fresh
  | connecting
  | connected
  | failed
  deriving DecidableEq, Repr

/-- A client, with the channels whose `LISTEN` it was granted. -/
structure PgClient where
  link : Link
  channels : List String
  deriving DecidableEq

/-- The client is connected and listens on some channel. -/
def PgClient.Live (c : PgClient) : Prop := c.link = .connected ∧ c.channels ≠ []

instance (c : PgClient) : Decidable c.Live := inferInstanceAs (Decidable (_ ∧ _))

/-- The names that `pgIdent` quotes; it throws for any other. -/
def isPgIdent (name : String) : Bool :=
  match name.toList with
  | [] => false
  | c :: cs => (c.isAlpha || c == '_') && cs.all fun c => c.isAlphanum || c == '_'

/-- What the broadcaster awaits: the timer of a reconnection, a client's `connect`, its
answer to a `LISTEN`, or its end. -/
inductive Awaited (F : Type)
  | reconnectTimer
  | reconnectConnect (k : ℕ)
  | reconnectListen (k i : ℕ) (channel : String)
  | connect (k : ℕ)
  | subscribeConnect (k : ℕ) (channel : String) (fn : F)
  | subscribeListen (k : ℕ) (channel : String) (fn : F)
  | close (k : ℕ)
  deriving DecidableEq

/-- The steps of a reconnection. -/
def Awaited.reconnects {F : Type} : Awaited F → Bool
  | .reconnectTimer => true
  | .reconnectConnect _ => true
  | .reconnectListen _ _ _ => true
  | _ => false

/-- A connection is being opened. -/
def Awaited.opens {F : Type} : Awaited F → Bool
  | .subscribeListen _ _ _ => false
  | .close _ => false
  | _ => true

/-- Clients are numbered in the order in which they are made, and `client` is the last.
Beside the class's own fields stand what it awaits, the NOTIFYs so far, which of them was
handed to which subscriber, and the subscribers that have missed one since their last
resync. -/
structure Broadcaster (F : Type) where
  clients : ℕ → PgClient
  client : ℕ
  subscribers : List (String × F)
  listening : List String
  connectedFlag : Bool
  shuttingDown : Bool
  awaited : List (Awaited F)
  notified : ℕ
  handed : List (ℕ × String × F)
  owed : List (String × F)

inductive BroadcasterOp (F : Type)
  | lose (k : ℕ)
  | emit (k : ℕ)
  | notify (channel : String)
  | connect
  | subscribe (channel : String) (fn : F)
  | unsubscribe (channel : String) (fn : F)
  | close
  | settle (job : Awaited F) (ok : Bool)

namespace Broadcaster

variable {F : Type}

def init : Broadcaster F where
  clients _ := ⟨.fresh, []⟩
  client := 0
  subscribers := []
  listening := []
  connectedFlag := false
  shuttingDown := false
  awaited := []
  notified := 0
  handed := []
  owed := []

/-- `this.client`. -/
def current (s : Broadcaster F) : PgClient := s.clients s.client

def setClient (s : Broadcaster F) (k : ℕ) (c : PgClient) : Broadcaster F :=
  { s with clients := Function.update s.clients k c }

def setLink (s : Broadcaster F) (k : ℕ) (link : Link) : Broadcaster F :=
  s.setClient k { s.clients k with link := link }

/-- The client has answered a `LISTEN`. -/
def listensOn (s : Broadcaster F) (k : ℕ) (channel : String) : Broadcaster F :=
  s.setClient k { s.clients k with channels := channel :: (s.clients k).channels }

def await (s : Broadcaster F) (job : Awaited F) : Broadcaster F :=
  { s with awaited := job :: s.awaited }

/-! ## Reconnecting -/

/-- The delay is left out: the timer may fire at any time. -/
def scheduleReconnect (s : Broadcaster F) : Broadcaster F :=
  if s.shuttingDown then s else s.await .reconnectTimer

def handleDisconnect (s : Broadcaster F) : Broadcaster F :=
  if s.shuttingDown then s
  else if s.connectedFlag then scheduleReconnect { s with connectedFlag := false }
  else s

/-- The timer's callback up to its first `await`. -/
def reconnect (s : Broadcaster F) : Broadcaster F :=
  if s.shuttingDown then s
  else
    ({ s with client := s.client + 1 }.setClient (s.client + 1) ⟨.connecting, []⟩).await
      (.reconnectConnect (s.client + 1))

section Subscribers

variable [DecidableEq F]

/-- The callback's loop over the channels from the `i`-th on. After the last one the flag
is set and every subscriber is sent a resync. -/
def relisten (s : Broadcaster F) (i : ℕ) : Broadcaster F :=
  match s.listening[i]? with
  | some channel => s.await (.reconnectListen s.client i channel)
  | none => { s with connectedFlag := true, owed := s.owed.filter (· ∉ s.subscribers) }

/-! ## The methods -/

/-- A client connects only once: `connect` rejects on a client that was used before. -/
def clientConnect (s : Broadcaster F) (job : Awaited F) : Broadcaster F :=
  if s.current.link = .fresh then (s.setLink s.client .connecting).await job else s

def connect (s : Broadcaster F) : Broadcaster F :=
  if s.connectedFlag then s else s.clientConnect (.connect s.client)

def addSubscriber (s : Broadcaster F) (channel : String) (fn : F) : Broadcaster F :=
  if (channel, fn) ∈ s.subscribers then s
  else { s with subscribers := s.subscribers ++ [(channel, fn)] }

/-- The rest of `subscribe`, once the flag is set. -/
def subscribeConnected (s : Broadcaster F) (channel : String) (fn : F) : Broadcaster F :=
  if channel ∈ s.listening then s.addSubscriber channel fn
  else if isPgIdent channel then s.await (.subscribeListen s.client channel fn)
  else s

def subscribe (s : Broadcaster F) (channel : String) (fn : F) : Broadcaster F :=
  if s.connectedFlag then s.subscribeConnected channel fn
  else s.clientConnect (.subscribeConnect s.client channel fn)

/-- The function that `subscribe` returns. -/
def unsubscribe (s : Broadcaster F) (channel : String) (fn : F) : Broadcaster F :=
  { s with
    subscribers := s.subscribers.filter (· ≠ (channel, fn))
    owed := s.owed.filter (· ≠ (channel, fn)) }

def close (s : Broadcaster F) : Broadcaster F :=
  if s.connectedFlag then { s with shuttingDown := true }.await (.close s.client)
  else { s with shuttingDown := true }

def addListening (s : Broadcaster F) (channel : String) : Broadcaster F :=
  { s with
    listening := if channel ∈ s.listening then s.listening else s.listening ++ [channel] }

/-- What follows an `await` that was resolved or rejected. -/
def resume (s : Broadcaster F) : Awaited F → Bool → Broadcaster F
  | .reconnectTimer, _ => s.reconnect
  | .reconnectConnect k, true => (s.setLink k .connected).relisten 0
  | .reconnectConnect k, false => (s.setLink k .failed).scheduleReconnect
  | .reconnectListen k i channel, true => (s.listensOn k channel).relisten (i + 1)
  | .reconnectListen _ _ _, false => s.scheduleReconnect
  | .connect k, true => { s.setLink k .connected with connectedFlag := true }
  | .connect k, false => s.setLink k .failed
  | .subscribeConnect k channel fn, true =>
      subscribeConnected { s.setLink k .connected with connectedFlag := true } channel fn
  | .subscribeConnect k _ _, false => s.setLink k .failed
  | .subscribeListen k channel fn, true =>
      ((s.listensOn k channel).addListening channel).addSubscriber channel fn
  | .subscribeListen _ _ _, false => s
  | .close k, true => { s.setLink k .failed with connectedFlag := false }
  | .close _, false => s

/-- A client resolves what it was asked only while it is connecting or connected; anything
may be rejected. -/
def canSettle (s : Broadcaster F) : Awaited F → Bool → Bool
  | .reconnectConnect k, true => (s.clients k).link = .connecting
  | .connect k, true => (s.clients k).link = .connecting
  | .subscribeConnect k _ _, true => (s.clients k).link = .connecting
  | .reconnectListen k _ _, true => (s.clients k).link = .connected
  | .subscribeListen k _ _, true => (s.clients k).link = .connected
  | _, _ => true

/-! ## Notifications -/

/-- The clients whose `notification` handlers the channel's NOTIFY reaches. -/
def receivers (s : Broadcaster F) (channel : String) : List ℕ :=
  (List.range (s.client + 1)).filter fun k =>
    (s.clients k).link = .connected ∧ channel ∈ (s.clients k).channels

def subscribersOf (s : Broadcaster F) (channel : String) : List (String × F) :=
  s.subscribers.filter (·.1 = channel)

/-- Each client that receives the NOTIFY hands it to every subscriber of the channel; if
none does, they have missed it. -/
def notify (s : Broadcaster F) (channel : String) : Broadcaster F :=
  { s with
    notified := s.notified + 1
    handed := s.handed ++
      (s.receivers channel).flatMap fun _ => (s.subscribersOf channel).map (s.notified, ·)
    owed := if s.receivers channel = [] then s.owed ++ s.subscribersOf channel else s.owed }

/-- A connection is lost, a failed client emits `error` or `end`, Postgres notifies, a
method is called, or something awaited is settled. -/
def step (s : Broadcaster F) : BroadcasterOp F → Broadcaster F
  | .lose k => if (s.clients k).link = .connected then s.setLink k .failed else s
  | .emit k => if (s.clients k).link = .failed then s.handleDisconnect else s
  | .notify channel => s.notify channel
  | .connect => s.connect
  | .subscribe channel fn => s.subscribe channel fn
  | .unsubscribe channel fn => s.unsubscribe channel fn
  | .close => s.close
  | .settle job ok =>
      if job ∈ s.awaited ∧ s.canSettle job ok then
        resume { s with awaited := s.awaited.erase job } job ok
      else s

end Subscribers

end Broadcaster

end Stellars
