import Wayfinder.Js.Json
import Wayfinder.Primitives

/-! `envelope.ts`: the context of a response, and the bearer token of a request.

The request context is any JSON value or missing: only some endpoints validate it. -/
namespace Wayfinder.Service.Envelope

open Js

inductive Status where
  | successful
  | failed
  | pending
  | accepted
deriving DecidableEq

structure ApiError where
  code : Str
  message : Str

structure ResponseContext where
  id : Json
  version : Json
  ts : Str
  msgId : Str
  transactionId : Option Json
  status : Status
  error : Option ApiError := none

/-- A response with a body of type `β`; a failed one has none. -/
structure Response (β : Type) where
  http : Nat
  context : ResponseContext
  response : Option β

variable (E : Env) {β : Type}

def responseContext (n : Nat) (reqCtx : Option Json) (status : Status) : ResponseContext :=
  { id := orElse (readProp? reqCtx (lit "id")) (.str (lit "api.unknown"))
    version := orElse (readProp? reqCtx (lit "version")) (.str (lit "1.0"))
    ts := E.now n
    msgId := E.uuid (n + 1)
    transactionId :=
      if truthy (readProp? reqCtx (lit "transactionId")) then
        readProp? reqCtx (lit "transactionId") else none
    status }

/-- How many draws a response makes. -/
def responseDraws : Nat := 2

def ok (n : Nat) (reqCtx : Option Json) (response : β) (http : Nat) : Response β :=
  ⟨http, responseContext E n reqCtx .successful, some response⟩

def accepted (n : Nat) (reqCtx : Option Json) (response : β) (transactionId : Str) : Response β :=
  ⟨202, { responseContext E n reqCtx .accepted with transactionId := some (.str transactionId) },
    some response⟩

def fail (n : Nat) (reqCtx : Option Json) (http : Nat) (code message : Str) : Response β :=
  ⟨http, { responseContext E n reqCtx .failed with error := some ⟨code, message⟩ }, none⟩

/-- The token of `context.authorization`. A value that is not a string has no
`startsWith`. -/
def bearerToken (reqCtx : Option Json) : Except Thrown (Option Str) :=
  let raw := readProp? reqCtx (lit "authorization")
  if !truthy raw then .ok none
  else
    match raw with
    | some (.str raw) =>
      if startsWith raw (lit "Bearer ") then .ok (some (slice raw (lit "Bearer ").length))
        else .ok (some raw)
    | _ => .error .typeError

/-- The token is the authorization, with or without `Bearer ` in front. -/
theorem bearerToken_some {reqCtx : Option Json} {token : Str}
    (h : bearerToken reqCtx = .ok (some token)) :
    ∃ raw, readProp? reqCtx (lit "authorization") = some (.str raw) ∧
      (raw = token ∨ raw = lit "Bearer " ++ token) := by
  simp only [bearerToken] at h
  split at h
  · cases h
  · split at h
    · next raw hraw =>
      refine ⟨raw, hraw, ?_⟩
      split at h
      · next hp =>
        right
        obtain ⟨rest, hrest⟩ := List.isPrefixOf_iff_prefix.mp hp
        rw [← hrest, slice_append, Except.ok.injEq, Option.some.injEq] at h
        rw [← h, hrest]
      · rw [Except.ok.injEq, Option.some.injEq] at h
        exact Or.inl h
    · cases h

end Wayfinder.Service.Envelope
