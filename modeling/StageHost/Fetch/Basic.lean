import StageHost.Fetch.Reply
import StageHost.Fetch.Url
import StageHost.Plugin.Interfaces
/-
  Loading the bytes of a guest module from its source, and a plugin from its settings.
  Files and servers are given as functions: what a path holds, and what answers at a host and
  port.
-/
namespace StageHost

/-- What a path leads to. -/
inductive FileContent
  | bytes (content : List UInt8)
  | missing
  | directory
deriving DecidableEq, Repr, Inhabited

/-- What a program meets at a host and port. -/
inductive Peer
  /-- Nothing listens. -/
  | refuses
  /-- Takes the request and closes. -/
  | hangsUp
  /-- Takes the request and never answers. -/
  | silent
  /-- Takes the request, sends some bytes and closes. -/
  | sends (reply : List UInt8)
deriving DecidableEq, Repr, Inhabited

/-- The files and servers around a program. -/
structure Surroundings where
  file : String → FileContent := fun _ => .missing
  peer : String → Nat → Peer := fun _ _ => .refuses

/-- The lines of a request. -/
abbrev Request : Type := List String

namespace Fetch

/-- How the fetcher names itself to servers. -/
def userAgent : String := "kubewasm/0.1.0"

/-- The request for an address: its first line and its headers. -/
def request (u : Url) : Request :=
  ["GET " ++ u.target ++ " HTTP/1.1", "host: " ++ u.authority, "user-agent: " ++ userAgent]

/-- A duration in whole seconds. -/
def secondsText (seconds : UInt64) : String :=
  if seconds = 0 then "0ns" else toString seconds.toNat ++ "s"

/-- The complaint about a server that took too long. -/
def timeoutReason (seconds : UInt64) : String := "timed out after " ++ secondsText seconds

/-- The bytes behind an address, or the reason why there are none; and the request, if one was
sent in plain text. -/
def fromServer (around : Surroundings) (url : String) (tls : Bool) (seconds : UInt64) :
    Except String (List UInt8) × Option Request :=
  match Url.parse? url with
  | none => (.error "invalid url: ", none)
  | some u =>
    if seconds = 0 then (.error (timeoutReason seconds), none)
    else
      let port := u.port.getD (if tls then 443 else 80)
      match around.peer u.host port with
      | .refuses =>
        (.error ("connect to " ++ u.host ++ ":" ++ toString port
          ++ ": Connection refused (os error 111)"), none)
      | peer =>
        if !u.askable then (.error "build request: ", none)
        else if tls then
          match peer with
          | .silent => (.error (timeoutReason seconds), none)
          | _ => (.error ("tls handshake with " ++ u.host ++ ": "), none)
        else
          let asked := some (request u)
          match peer with
          | .silent => (.error (timeoutReason seconds), asked)
          | .sends reply =>
            match Reply.read reply with
            | .unreadable => (.error "request failed: ", asked)
            | .answered status body =>
              if status < 200 ∨ 300 ≤ status then
                (.error ("unexpected status " ++ Reply.statusText status), asked)
              else
                match body with
                | some bytes => (.ok bytes, asked)
                | none => (.error "read body: ", asked)
          | _ => (.error "request failed: ", asked)

/-- The bytes of a source. -/
def fromSource (around : Surroundings) (s : Source) (seconds : UInt64) :
    Except LoadError (List UInt8) × Option Request :=
  match s with
  | .file path =>
    match around.file path with
    | .bytes content => (.ok content, none)
    | .missing => (.error (.file path "NotFound" "No such file or directory (os error 2)"), none)
    | .directory => (.error (.file path "IsADirectory" "Is a directory (os error 21)"), none)
  | .http url tls =>
    match fromServer around url tls seconds with
    | (.ok bytes, asked) => (.ok bytes, asked)
    | (.error reason, asked) => (.error (.fetch url reason), asked)

/-- The bytes of the module that settings name. -/
def fromConfig (around : Surroundings) (c : Config) :
    Except LoadError (List UInt8) × Option Request :=
  match Source.parse c.guestUrl with
  | .ok s => fromSource around s c.fetchSeconds
  | .error e => (.error (.source e), none)

end Fetch
end StageHost
