import GlobalTxn.Uri.Syntax
import GlobalTxn.Text.Split

/-! # Addresses of etcd clusters

Stores kept in etcd are addressed as `etcd://host1:2379,host2:2379/root?username=u&password=p`:

* the scheme `etcd` means plain connections and `etcd+tls` secured ones;
* the address lists servers separated by commas, each an authority without userinfo; each
  gives an endpoint `http://server` or `https://server`;
* the root is empty or a path of non-empty segments that does not end with `/`;
* the query, if any, is not empty and gives both `username` and `password` once each, or
  neither.

`EtcdUri.parse` checks these in that order and names the first rule broken.  Whether a scheme,
an authority, a path segment or a query is well formed is what its `Checks` say; addresses are
read with `Checks.standard`.
-/

namespace GlobalTxn.Uri

/-- Why text is no etcd address. -/
inductive EtcdUriError where
  | notUri
  | noScheme
  | invalidScheme
  | unsupportedScheme
  | noAddress
  | invalidAddress
  | usernameInAddress
  | emptyParams
  | invalidParams
  | invalidRoot
  deriving DecidableEq, Repr

/-- Text of the error about `uri`. -/
def EtcdUriError.message (e : EtcdUriError) (uri : String) : String :=
  match e with
  | .notUri => s!"invalid etcd uri: {uri}"
  | .noScheme => s!"no scheme in etcd uri: {uri}"
  | .invalidScheme => s!"invalid scheme in etcd uri: {uri}"
  | .unsupportedScheme => s!"unsupported etcd uri scheme: {uri}"
  | .noAddress => s!"no address in etcd uri: {uri}"
  | .invalidAddress => s!"invalid address in etcd uri: {uri}"
  | .usernameInAddress => s!"unsupported username in etcd uri address: {uri}"
  | .emptyParams => s!"empty params in etcd uri: {uri}"
  | .invalidParams => s!"invalid params in etcd uri: {uri}"
  | .invalidRoot => s!"invalid root path in etcd uri: {uri}"

/-- The address of an etcd cluster: endpoints, key root and credentials. -/
structure EtcdUri where
  endpoints : List String
  root : String
  user : Option (String × String)
  deriving DecidableEq, Repr

/-- The text before and after the first occurrence of `pat`. -/
def splitOnce? (pat : List Char) : List Char → Option (List Char × List Char)
  | [] => if pat.isEmpty then some ([], []) else none
  | c :: cs =>
    if pat.isPrefixOf (c :: cs) then some ([], (c :: cs).drop pat.length)
    else (splitOnce? pat cs).map fun (a, b) => (c :: a, b)

variable (k : Checks)

/-- Whether a root is empty or a path of non-empty segments not ending with `/`. -/
def isRoot (root : List Char) : Bool :=
  match root with
  | [] => true
  | '/' :: rest =>
    root.getLast? != some '/' &&
      (Text.splitAt '/' rest).all fun seg => !seg.isEmpty && k.isSegment seg
  | _ => false

/-- The credentials of a query: both of `username` and `password` once each, or neither;
`none` if the query says anything else. -/
def credentials? (query : List Char) : Option (Option (String × String)) := do
  if !k.isQuery query then none
  let params ← (Text.splitAt '&' query).foldlM (fun (user, pass) param => do
    let (k, v) ← Text.splitFirst? '=' param
    let v := String.ofList v
    match String.ofList k with
    | "username" => if user.isSome then none else pure (some v, pass)
    | "password" => if pass.isSome then none else pure (user, some v)
    | _ => none) (none, none)
  match params with
  | (none, none) => pure none
  | (some u, some p) => pure (some (u, p))
  | _ => none

namespace EtcdUri

/-- The web scheme of the endpoints of a scheme: `http` for `etcd`, `https` for `etcd+tls`. -/
def webScheme (scheme : List Char) : Except EtcdUriError String := do
  match k.schemeProblem? scheme with
  | some .empty => throw .noScheme
  | some .invalid => throw .invalidScheme
  | none => pure ()
  match String.ofList scheme with
  | "etcd" => pure "http"
  | "etcd+tls" => pure "https"
  | _ => throw .unsupportedScheme

/-- The endpoint of one server of the address. -/
def endpoint (web : String) (server : List Char) : Except EtcdUriError String := do
  let some a := k.authority? server | throw .invalidAddress
  if a.userinfo.isSome then throw .usernameInAddress
  pure s!"{web}://{String.ofList server}"

/-- The root and the credentials in what follows the address. -/
def rootAndUser (trailing : List Char) :
    Except EtcdUriError (List Char × Option (String × String)) :=
  match Text.splitFirst? '?' trailing with
  | none => pure (trailing, none)
  | some (_, []) => throw .emptyParams
  | some (root, query) =>
    match credentials? k query with
    | some user => pure (root, user)
    | none => throw .invalidParams

/-- Reads the address of an etcd cluster. -/
def parse (uri : String) : Except EtcdUriError EtcdUri := do
  let some (scheme, trailing) := splitOnce? "://".toList uri.toList | throw .notUri
  let web ← webScheme k scheme
  let address := trailing.takeWhile fun c => c != '/' && c != '?'
  let trailing := trailing.drop address.length
  if address.isEmpty then throw .noAddress
  let endpoints ← (Text.splitAt ',' address).mapM (endpoint k web)
  let (root, user) ← rootAndUser k trailing
  if !isRoot k root then throw .invalidRoot
  pure ⟨endpoints, String.ofList root, user⟩

end EtcdUri

end GlobalTxn.Uri
