import GradidoConnector.JsonListTransactions

/-!
# Opening a connection

Model of `JSONInterface/JsonOpenConnection.cpp`, `handleRequest`. A community signs the public key
of the server with its own key and gets a token to log its users in with.

* The results of the two `getStringParameter` are not looked at, so a parameter that cannot be read
  is empty.
* The key pair of the caller is built from the 32 bytes at `communityPubkey->data()`. Where that is
  a null pointer or the memory is shorter, `keyAt` is whatever the read gives.
* The last clause catches `std::runtime_error`; any other exception of the standard library leaves
  the handler.
-/

namespace GradidoConnector

open GradidoConnector.Base GradidoConnector.Base.Act

/-- `what()` -/
def Exn.what : Exn → String
  | loginException what .. | sessionException what .. | jwtTokenException what ..
  | invalidPasswordException what .. | rowNotFoundException what ..
  | passwordEncryptionRateLimitException what | gradidoNodeRPCException what ..
  | apolloDecayException what .. | decryptionFailedException what | missingKeyException what ..
  | ed25519SignException what .. | ed25519VerifyException what ..
  | transactionValidationInvalidSignatureException what
  | transactionValidationInvalidInputException what .. | iotaRequestException what
  | requestResponseErrorException what | rapidjsonParseErrorException what
  | rapidjsonMissingMemberException what .. | gradidoBlockchainException what
  | signatureVerificationException what | pocoException what | runtimeError what
  | stdException what => what
  | unknown | crash _ => ""

/-- A request to open a connection. -/
structure OpenRequest where
  method : String
  params : Params

/-- What the handler uses of the libraries and of the server's configuration. -/
structure Opener where
  lib : Library
  cfg : Config
  /-- `Poco::Timestamp()` -/
  now : Nat
  /-- The public key of `ServerConfig::g_JwtPrivateKey`. -/
  serverPubkey : Bytes
  /-- The 32 bytes at `data()`. -/
  keyAt : Option Bytes → Except Exn Bytes
  keyAt_of_le : ∀ pubkey, 32 ≤ pubkey.length → keyAt (some pubkey) = .ok (pubkey.take 32)
  /-- `KeyPairEd25519::verify` with the public key, for a message and a signature. -/
  verify : Bytes → Bytes → Option Bytes → Except Exn Bool

namespace JsonOpenConnection

/-- What stands in the `try` block after the parameters. -/
def verifyCaller (o : Opener) (communityPubkeyHex signatureHex : String) : Except Exn Document := do
  let communityPubkey := o.lib.hexToBin communityPubkeyHex
  let signature := o.lib.hexToBin signatureHex
  let callerKeyPair ← o.keyAt communityPubkey
  let serverPubkeyHex := o.lib.binToHex o.serverPubkey
  if !(← o.verify callerKeyPair o.serverPubkey signature) then
    throw (.ed25519VerifyException "cannot verify signature" serverPubkeyHex signatureHex)
  let serializedJWTToken := o.cfg.signer.sign (SessionManager.connectionToken o.cfg o.now)
  return Document.stateSuccess.addMember "token" (.str (cString serializedJWTToken))

/-- The `try` block. -/
def openConnection (o : Opener) (params : Params) : Except Exn Document :=
  let communityPubkeyHex := params.str "community-key-A"
  let signatureHex := params.str "signature"
  if communityPubkeyHex.isEmpty ∨ signatureHex.isEmpty then
    .error (.gradidoBlockchainException "parameter error")
  else verifyCaller o communityPubkeyHex signatureHex

/-- The `catch` clauses after a `try` block. -/
def catchExceptions : Except Exn Document → Except Exn Document
  | .ok rapid_json_result => .ok rapid_json_result
  | .error (.ed25519VerifyException what pubkeyHex signatureHex) =>
    .ok (.error what (.exception (.ed25519VerifyException what pubkeyHex signatureHex)))
  | .error e =>
    match e.baseClass with
    | some .gradidoBlockchainException => .ok (.stateError e.what)
    | some .pocoException | some .runtimeError => .ok (.stateError "Internal Server Error")
    | some .stdException | none => .error e

def handleRequest (o : Opener) (request : OpenRequest) : Except Exn Document :=
  if request.method = "POST" then catchExceptions (openConnection o request.params)
  else .ok .null

end JsonOpenConnection

end GradidoConnector
