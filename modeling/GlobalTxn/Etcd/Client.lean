import GlobalTxn.Etcd.KeySpace
import GlobalTxn.Text.Quoted

/-! # Talking to an etcd server

A client talks to an etcd server by requests, each answered before the next is sent.  A
`Request β` is answered by a `β`, or by a failure status.  The server first ends the leases
that have expired by its clock reading, then serves the request against its key space:

* `range` reads a key or the keys under a prefix, in increasing order;
* `snapshot` reads several keys at once, in one transaction without comparisons;
* `put` and `delete` write one key;
* `txn` writes only if its comparisons hold, and answers whether they did;
* `grant`, `revoke` and `keepAlive` manage leases;
* `authenticate` gives a token for any user.

A granted lease lives at least a second and at most 9,000,000,000 seconds; asking for more
fails with `outOfRange`.  A put naming a lease that does not exist, and a revoke of such a
lease, fail with `notFound`.

`Client α` is what a client does: a conversation of requests, each followed by what to do with
its answer, until it ends with an `α`.  Writing the stores as conversations keeps each request
one step, so that the requests of several clients can be interleaved; `Client.run` plays one
conversation alone against a server.  A client may also have no route to its server:
`Client.runUnreachable` plays a conversation in which every request fails that way.

Main statements: `run_pure`, `run_bind` and `run_send`, which say how a run goes through a
conversation one request at a time, and `runUnreachable_send`.
-/

namespace GlobalTxn.Etcd

/-- Status codes of failed requests. -/
inductive Code where
  | notFound
  | outOfRange
  deriving DecidableEq, Repr

/-- The name of a status code. -/
def Code.name : Code → String
  | .notFound => "NotFound"
  | .outOfRange => "OutOfRange"

/-- A failed request. -/
inductive RpcError where
  /-- The server refused it, with a status code and a message. -/
  | refused (code : Code) (message : String)
  /-- It never reached the server: the network has no route there. -/
  | unreachable
  deriving DecidableEq, Repr

namespace RpcError

/-- The failure of a request that names a lease that does not exist. -/
def leaseNotFound : RpcError := .refused .notFound "etcdserver: requested lease not found"

/-- The failure of a grant of a lease that would live too long. -/
def leaseTooLarge : RpcError := .refused .outOfRange "etcdserver: too large lease TTL"

/-- The metadata of a failure as the client library shows it: the fixed headers of a reply, or
none when no reply came. -/
def metadataText : RpcError → String
  | .refused _ _ =>
    "MetadataMap \x7b headers: \x7b\"content-type\": \"application/grpc\", " ++
      "\"date\": \"Thu, 01 Jan 1970 00:00:00 GMT\", \"content-length\": \"0\"\x7d \x7d"
  | .unreachable => "MetadataMap \x7b headers: \x7b\x7d \x7d"

/-- The status name and the message of a failure; a request without a route is unavailable. -/
def status : RpcError → String × String
  | .refused code message => (code.name, message)
  | .unreachable =>
    ("Unavailable",
      "error trying to connect: tcp connect error: Network is unreachable (os error 101)")

/-- Text of a failed request, as the client library reports it: status, quoted message, and
metadata. -/
def text (e : RpcError) : String :=
  "grpc request error: status: " ++ e.status.1 ++ ", message: " ++ Text.quote e.status.2 ++
    ", details: [], metadata: " ++ e.metadataText

end RpcError

/-- A key as the client library shows it in messages: checked to be UTF-8, which a key made
from text always is, and quoted. -/
def KeyValue.keyText (kv : KeyValue) : String :=
  "Ok(" ++ Text.quote kv.key ++ ")"

/-- The longest lease a server grants, in seconds. -/
def maxLeaseTtl : Int := 9000000000

/-- A request to an etcd server, answered by a `β`. -/
inductive Request : Type → Type where
  /-- The keys of a range. -/
  | range (r : KeyRange) : Request (List KeyValue)
  /-- Several keys read together; each is there or not. -/
  | snapshot (keys : List String) : Request (List (Option KeyValue))
  /-- Writes a key, attached to a lease (0 for none). -/
  | put (key : String) (value : List UInt8) (lease : Nat) : Request Unit
  /-- Deletes a key; answers how many keys went. -/
  | delete (key : String) : Request Nat
  /-- Writes if every comparison holds; answers whether they did. -/
  | txn (compares : List Compare) (writes : List Write) : Request Bool
  /-- Grants a lease of a number of seconds; answers its id. -/
  | grant (ttl : Int) : Request Nat
  /-- Ends a lease and deletes its keys. -/
  | revoke (id : Nat) : Request Unit
  /-- Keeps a lease alive; answers its time to live, 0 if there is no such lease. -/
  | keepAlive (id : Nat) : Request Nat
  /-- Logs a user in; answers a token. -/
  | authenticate (user password : String) : Request String

namespace KeySpace

/-- Whether every put among the writes names no lease or a live one. -/
def leasesLive (s : KeySpace) (writes : List Write) : Bool :=
  writes.all fun
    | .put _ _ lease => lease == 0 || (s.findLease? lease).isSome
    | .delete _ => true

/-- Serves a request at clock reading `now`, after ending the leases expired by then. -/
def serve (s : KeySpace) (now : Nat) {β : Type} (req : Request β) :
    Except RpcError β × KeySpace :=
  let s := s.expire now
  match req with
  | .range r => (.ok (s.range r), s)
  | .snapshot keys => (.ok (keys.map s.find?), s)
  | .put key value lease =>
    if s.leasesLive [.put key value lease] then (.ok (), s.put key value lease)
    else (.error .leaseNotFound, s)
  | .delete key =>
    let (n, s) := s.delete key
    (.ok n, s)
  | .txn compares writes =>
    let (ok, s') := s.txn compares writes
    if ok && !s.leasesLive writes then (.error .leaseNotFound, s) else (.ok ok, s')
  | .grant ttl =>
    if ttl > maxLeaseTtl then (.error .leaseTooLarge, s)
    else
      let (id, s) := s.grant (max ttl 1).toNat now
      (.ok id, s)
  | .revoke id =>
    match s.findLease? id with
    | some _ => (.ok (), s.dropLeases [id])
    | none => (.error .leaseNotFound, s)
  | .keepAlive id =>
    let (ttl, s) := s.keepAlive id now
    (.ok ttl, s)
  | .authenticate user _ => (.ok ("token-" ++ user), s)

end KeySpace

/-- A conversation with an etcd server that ends with an `α`. -/
inductive Client (α : Type) where
  /-- The conversation is over, with this value. -/
  | pure (a : α)
  /-- Sends a request and goes on with its answer. -/
  | call {β : Type} (req : Request β) (next : Except RpcError β → Client α)

namespace Client

/-- Goes on with `f` after a conversation. -/
def bind {α β : Type} : Client α → (α → Client β) → Client β
  | .pure a, f => f a
  | .call req next, f => .call req fun r => (next r).bind f

instance : Monad Client where
  pure := .pure
  bind := bind

/-- Sends one request and ends with its answer. -/
def send {β : Type} (req : Request β) : Client (Except RpcError β) :=
  .call req .pure

/-- Sends one request in a conversation that fails with `ε`: a failed request fails it, by
`wrap`. -/
def ask {ε β : Type} (wrap : RpcError → ε) (req : Request β) : ExceptT ε Client β :=
  ExceptT.mk (.call req fun r => .pure (r.mapError wrap))

/-- Plays a conversation alone against a server whose clock reads `now`: the final value and
the server afterwards. -/
def run {α : Type} (now : Nat) : Client α → KeySpace → α × KeySpace
  | .pure a, s => (a, s)
  | .call req next, s =>
    let (r, s) := s.serve now req
    run now (next r) s

/-- Connects to a server: a client with a user logs in first, and fails if that fails. -/
def connect (user : Option (String × String)) : Client (Except RpcError Unit) :=
  match user with
  | some (name, password) => do
    let r ← send (.authenticate name password)
    pure (r.map fun _ => ())
  | none => pure (.ok ())

/-- Plays a conversation of a client with no route to its server: every request fails as
unreachable, and the server is never reached. -/
def runUnreachable {α : Type} : Client α → α
  | .pure a => a
  | .call _ next => runUnreachable (next (.error .unreachable))

@[simp] theorem runUnreachable_send {β : Type} (req : Request β) :
    runUnreachable (send req) = .error .unreachable := rfl

@[simp] theorem run_pure {α : Type} (now : Nat) (a : α) (s : KeySpace) :
    run now (pure a : Client α) s = (a, s) := rfl

@[simp] theorem run_send {β : Type} (now : Nat) (req : Request β) (s : KeySpace) :
    run now (send req) s = s.serve now req := rfl

theorem run_bind {α β : Type} (now : Nat) (c : Client α) (f : α → Client β) (s : KeySpace) :
    run now (c >>= f) s = run now (f (run now c s).1) (run now c s).2 := by
  induction c generalizing s with
  | pure a => rfl
  | call req next ih =>
    show run now ((Client.call req next).bind f) s = _
    simp only [bind, run]
    exact ih _ _

end Client

end GlobalTxn.Etcd
