import Wayfinder.Js.Map
import Wayfinder.Service.Crypto

/-! `store.ts`: the accounts, with their custodial keys and access tokens. -/
namespace Wayfinder.Service.Store

open Js Crypto

inductive EntityType where
  | personal
  | business

structure Account where
  address : Str
  name : Str
  entityType : EntityType
  did : Str
  keyId : Str
  publicKeyMultibase : Str
  publicKey : Bytes
  privateKey : Bytes
  createdAt : Str

structure State where
  byAddress : JsMap Str Account
  /-- Access token to address. -/
  byToken : JsMap Str Str
  /-- Key reference to address. -/
  byKeyId : JsMap Str Str

def State.empty : State := ⟨.empty, .empty, .empty⟩

def addressTaken (s : State) (address : Str) : Bool := s.byAddress.has address

def getByAddress (s : State) (address : Str) : Option Account := s.byAddress.get address

/-- `address ? byAddress.get(address) : undefined` -/
def ofAddress (s : State) (address : Option Str) : Option Account :=
  match address with
  | none => none
  | some address => if address = [] then none else s.byAddress.get address

def getByKeyId (s : State) (keyId : Str) : Option Account := ofAddress s (s.byKeyId.get keyId)

def getByToken (s : State) (token : Str) : Option Account := ofAddress s (s.byToken.get token)

structure RegistrationRequest where
  address : Str
  name : Str
  entityType : EntityType

structure CreatedAccount where
  account : Account
  accessToken : Str

variable (P : Primitives) (E : Env)

/-- The account of a registration: a key pair, a key reference and the time are drawn. -/
def newAccount (n : Nat) (input : RegistrationRequest) : Account :=
  let keypair := generateKeypair P E n
  let didKey := didKeyFromPublicKey P keypair.publicKey
  { address := input.address
    name := input.name
    entityType := input.entityType
    did := didKey.did
    keyId := E.uuid (n + 1)
    publicKeyMultibase := didKey.publicKeyMultibase
    publicKey := keypair.publicKey
    privateKey := keypair.privateKey
    createdAt := E.now (n + 2) }

def accessTokenAt (n : Nat) : Str := lit "standin_" ++ E.uuid n

def createAccount (n : Nat) (s : State) (input : RegistrationRequest) : State × CreatedAccount :=
  let account := newAccount P E n input
  let accessToken := accessTokenAt E (n + 3)
  ({ byAddress := s.byAddress.set account.address account
     byKeyId := s.byKeyId.set account.keyId account.address
     byToken := s.byToken.set accessToken account.address }, ⟨account, accessToken⟩)

/-- How many draws an account makes. -/
def accountDraws : Nat := 4

end Wayfinder.Service.Store
