/-
# Replies of the messages service

What the status of a reply means, how long the service asks to wait, and which text a reply holds.
The time to wait is a decimal number of seconds; whoever reads one that exceeds every duration dies
of it.
-/

import Rolewright.Failure
import Rolewright.Generator.Basic
import Rolewright.Json.Read
import Rolewright.Text.Blank

namespace Rolewright

/-- A reply of a server. -/
structure Reply where
  status : Nat
  headers : List (String × String)
  body : List Char
deriving DecidableEq, Repr

/-- How long a server asks to wait. -/
inductive WaitHint where
  | absent
  | wait (duration : Duration)
  /-- Longer than any duration. -/
  | excessive
deriving DecidableEq, Repr

namespace WaitHint

/-- A duration has less than `2 ^ 64` seconds. A fraction of a nanosecond is rounded, a half to the
even neighbour. -/
def ofSeconds (mantissa : Nat) (exponent : Int) : WaitHint :=
  let up := Nat.pow 2 exponent.toNat
  let down := Nat.pow 2 (-exponent).toNat
  if Nat.pow 2 64 * down ≤ mantissa * up then .excessive
  else .wait ⟨Binary.nearest (mantissa * up * 1000000000) down⟩

/-- The hint that a header value spells. A value that is no finite number or is negative spells
none. -/
def read (value : List Char) : WaitHint :=
  match Binary.ofNumeral? .double (Text.trim value) with
  | some (.finite negative mantissa exponent) =>
    if negative && mantissa != 0 then .absent else ofSeconds mantissa exponent
  | some (.infinite _) | some .nan | none => .absent

/-- The duration of a hint. -/
def duration? : WaitHint → Option Duration
  | .wait duration => some duration
  | .absent | .excessive => none

end WaitHint

namespace Reply

/-- The value of a header; names of headers are written in any case. -/
def header? (reply : Reply) (name : String) : Option String :=
  (reply.headers.find? fun header => header.1.toLower == name).map (·.2)

/-- Whether a header value is text that can be read: visible characters, blanks and tabs. -/
def isReadable (value : String) : Bool :=
  value.toList.all fun c => c == '\t' || (32 ≤ c.toNat && c.toNat < 127)

/-- How long the server asks to wait. -/
def waitHint (reply : Reply) : WaitHint :=
  match (reply.header? "retry-after").filter isReadable with
  | some value => .read value.toList
  | none => .absent

/-- What a status other than success stands for. A refused request is told from a server that is
busy, slow or broken. -/
def statusError? (status : Nat) (wait : Option Duration) : Option GenerationError :=
  if 200 ≤ status && status < 300 then none
  else if status = 429 || status = 529 then some (.rateLimited wait)
  else if status = 408 || status = 504 then
    some (.transport ("gateway timeout (HTTP " ++ toString status ++ ")"))
  else if 400 ≤ status && status < 500 then some (.rejected status)
  else some (.transport ("HTTP " ++ toString status))

/-- A block of a reply: its type and the text it may have. -/
structure Block where
  type : String
  text : Option String
deriving DecidableEq, Repr

/-- A text that may be missing. -/
def optionalText? : Option Json → Option (Option String)
  | none | some .null => some none
  | some (.str text) => some (some text)
  | some _ => none

/-- The block that a document describes, by names or by position. -/
def block? : Json → Option Block
  | .arr [.str type, text] => (optionalText? (some text)).map (Block.mk type)
  | .obj fields => do
    let type ← (Entries.get? fields "type").bind Json.asString?
    let text ← optionalText? (Entries.get? fields "text")
    return ⟨type, text⟩
  | _ => none

/-- The blocks that the body of a reply describes. -/
def blocks? (body : Json) : Option (List Block) :=
  match body with
  | .obj fields =>
    match Entries.get? fields "content" with
    | some (.arr items) => items.mapM block?
    | _ => none
  | .arr [.arr items] => items.mapM block?
  | _ => none

/-- The text of a reply: that of its text blocks, one below the other. -/
def text (body : List Char) : Except GenerationError String :=
  match (Json.read? Json.documentDepth body).bind blocks? with
  | none => .error (.transport readerMessage)
  | some blocks =>
    match (blocks.filter (·.type == "text")).filterMap (·.text) with
    | [] => .error (.transport "response contained no text content")
    | texts => .ok (String.intercalate "\n" texts)

/-- What becomes of a reply. -/
def answer (reply : Reply) : Answer String GenerationError :=
  match reply.waitHint with
  | .excessive =>
    .fatal "the time to wait exceeds every duration"
  | hint =>
    match statusError? reply.status hint.duration? with
    | some error => .failed error
    | none => .ofExcept (text reply.body)

end Reply

end Rolewright
