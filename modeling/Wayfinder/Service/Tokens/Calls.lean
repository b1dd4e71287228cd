import Wayfinder.Machine
import Wayfinder.Service.Tokens

/-! The token store on its own.

`tokens.ts` is called to mint and to transfer, with any input. What a mint finds in the
registry and in the store of credentials comes with the call, so a list of calls is any
interleaving of mints and transfers with whatever else the service does. -/
namespace Wayfinder.Service.Tokens

open Js

variable (P : Primitives) (E : Env)

/-- The token store, the ledger that it writes to, and the number of draws made. -/
structure Vault where
  tokens : State
  ledger : Ledger.State
  draws : Nat

inductive Call where
  | mint (credentials : Credentials.State) (classes : TokenClasses.State) (input : MintInput)
  | transfer (input : TransferInput)

inductive Answer where
  | minted (token : TokenInstance)
  | moved (txId : Str)
  | refused (message : Str)
  | threw (thrown : Thrown)

def Vault.call (v : Vault) : Call → Vault × Answer
  | .mint credentials classes input =>
    match mintToken P E v.draws credentials classes v.tokens v.ledger input with
    | .error e => (v, .threw e)
    | .ok (.refused _ message next) => ({ v with draws := next }, .refused message)
    | .ok (.ok tokens ledger token next) => (⟨tokens, ledger, next⟩, .minted token)
  | .transfer input =>
    match transferToken P E v.draws v.tokens v.ledger input with
    | .refused _ message => (v, .refused message)
    | .ok tokens ledger txId _ => (⟨tokens, ledger, v.draws + transferDraws⟩, .moved txId)

def machine : Machine Vault Call Answer where
  initial := ⟨.empty, .empty, 0⟩
  step := Vault.call P E

/-- The id of the token that an accepted mint answers with. -/
def Answer.mintedId : Answer → Option Str
  | .minted token => some token.id
  | _ => none

/-- The ids that a run minted, in order. -/
def mintedIds (calls : List Call) : List Str :=
  ((machine P E).history calls).filterMap fun event => event.2.mintedId

end Wayfinder.Service.Tokens
