/-
# The messages service

A generator that asks a service over the network: a request is posted as one message under the
system prompt, and the reply is read. The exchange of a post for a reply is given as a function, so
every statement about the generator is one about all services.
-/

import Rolewright.Configuration.Basic
import Rolewright.Generator.Reply

namespace Rolewright

/-- What is sent to a server. -/
structure Post where
  endpoint : String
  headers : List (String × String)
  body : Json
deriving Repr

/-- Why there was no reply. -/
inductive ExchangeError where
  | timedOut
  | broken (message : String)
deriving DecidableEq, Repr

/-- What becomes of each post. -/
abbrev Exchange := Moment → Post → Except ExchangeError Reply

/-- Without a network no post arrives. -/
def Exchange.offline : Exchange :=
  fun _ _ => .error (.broken "io: Network is unreachable (os error 101)")

namespace Messages

/-- The version of the service that posts and replies follow. -/
def serviceVersion : String := "2023-06-01"

/-- A number of single precision as a document shows it: by its own shortest digits. -/
def shown (x : Binary) : Binary :=
  match x with
  | .finite negative mantissa exponent =>
    if mantissa = 0 then x
    else
      let (digits, power) := Number.shortest .single mantissa exponent
      .ofDecimal .double negative digits power
  | .infinite _ | .nan => x

/-- The post for a request. -/
def post (settings : Configuration.GeneratorSettings) (key : String) (request : Request) : Post :=
  { endpoint := settings.endpoint
    headers := [
      ("x-api-key", key),
      ("anthropic-version", serviceVersion),
      ("content-type", "application/json")]
    body := .obj [
      ("model", .str settings.model),
      ("max_tokens", .int settings.maxTokens),
      ("temperature", .float (shown settings.temperature)),
      ("system", .str Request.systemPrompt),
      ("messages", .arr [
        .obj [("role", .str "user"), ("content", .str request.userPrompt)]])] }

/-- Has the service answer a request. -/
def generate (settings : Configuration.GeneratorSettings) (key : String) (timeout : Duration)
    (exchange : Exchange) (moment : Moment) (request : Request) :
    Answer String GenerationError :=
  match exchange moment (post settings key request) with
  | .ok reply => reply.answer
  | .error .timedOut => .failed (.timedOut timeout)
  | .error (.broken message) => .failed (.transport message)

end Messages

end Rolewright
