import GlobalTxn.Protocol.Ident
import GlobalTxn.Uri.Etcd

/-! # Answers about etcd cluster addresses -/

namespace GlobalTxn.Protocol

open Member

/-- Answers `etcd_uri`: the endpoints, root and credentials of an address. -/
def answerEtcdUri (req : Value) : Decode Value := do
  let uri ← need req "uri" string
  pure <| match Uri.EtcdUri.parse .standard uri with
    | .ok u =>
      .obj [("endpoints", .list .str u.endpoints), ("root", .str u.root),
        ("user", .opt (fun (name, password) => .arr [.str name, .str password]) u.user)]
    | .error e => plainError (e.message uri)

end GlobalTxn.Protocol
