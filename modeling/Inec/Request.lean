import Inec.Lib.Checks
import Inec.Store.Database

/-!
# Requests

A handler reads the database, the claims of its caller and a few answers from outside: the clock, the
permission service, the signing service. `Env` collects those answers for one request. A handler that
writes an error leaves the database as it was, since every write is inside one transaction; the audit
rows of refused requests are left out, because nothing here reads them back.
-/

namespace Inec

open Checks

/-- `writeError`: the HTTP status and the text. -/
structure HttpError where
  code : Nat
  message : String
  deriving DecidableEq, Repr

inductive Role
  | admin | presidingOfficer | collationOfficer | returningOfficer | ictOfficer
  | security | dpo | officer | observer | anonymous
  deriving DecidableEq, Repr

def Role.text : Role → String
  | .admin => "admin"
  | .presidingOfficer => "presiding_officer"
  | .collationOfficer => "collation_officer"
  | .returningOfficer => "returning_officer"
  | .ictOfficer => "ict_officer"
  | .security => "security"
  | .dpo => "dpo"
  | .officer => "officer"
  | .observer => "observer"
  | .anonymous => "public"

/-- The verified JWT claims of the caller. -/
structure Claims where
  userId : Int
  username : String
  role : Role
  stateCode : String
  deriving DecidableEq, Repr

/-- `integritySignatureResponse`. -/
structure SignatureResponse where
  payloadSha256 : String
  signature : String
  keyId : String
  deriving DecidableEq, Repr

/-- `integrityVerificationResponse`. -/
structure VerificationResponse where
  valid : Bool
  keyId : String
  deriving DecidableEq, Repr

/-- The order in which Go ranges over the keys of a map, or an unordered query returns its groups. -/
structure IterationOrder where
  arrange : List String → List String
  perm : ∀ keys, (arrange keys).Perm keys

/-- What one request sees of the world outside the database. -/
structure Env where
  claims : Claims
  /-- `time.Now()` and `CURRENT_TIMESTAMP`, in Unix seconds. -/
  now : Int
  /-- `checkPermission`: the answer of Permify, `false` when it fails. -/
  checkPermission : Role → String → Bool
  integritySigningRequired : Bool
  isProductionLike : Bool
  integrityServiceToken : String
  /-- `POST /integrity/sign` of the integrity service. -/
  callSign : String → Except String SignatureResponse
  /-- `POST /integrity/verify` of the integrity service, on hash, signature and key id. -/
  callVerify : String → String → String → Except String VerificationResponse
  /-- The outcome of queueing a Fabric anchor, `none` while anchoring is disabled. -/
  fabricAnchor : Option (Except String Unit)
  /-- The geofence and GPS plausibility checks of a submission. -/
  deviceLocation : Except HttpError Unit
  /-- `OBSERVER_DISPUTE_QUOTA_PER_HOUR`, 5 unless it is set. -/
  observerDisputeQuota : Nat
  /-- Whether the database driver lets a query pass that is given more arguments than it has
  placeholders. -/
  acceptsSurplusArgs : Bool
  order : IterationOrder
  /-- Whether the audit append after the main transaction commits. -/
  auditCommits : Bool

def integrityPolicyRequired (env : Env) : Bool := env.integritySigningRequired || env.isProductionLike

/-- `requireRole` of auth.go. -/
def requireRole (env : Env) (roles : List Role) : Except HttpError Unit :=
  require (roles.contains env.claims.role) ⟨403, "insufficient permissions"⟩

/-- `guardRole` of security.go. -/
def guardRole (env : Env) (roles : List Role) : Except HttpError Unit :=
  require (roles.contains env.claims.role)
    ⟨403, "role '" ++ env.claims.role.text ++ "' not authorized; required one of: [" ++
      String.intercalate " " (roles.map Role.text) ++ "]"⟩

/-- `logAudit`: the append runs in its own transaction after the handler's, and may fail alone. -/
def logAudit (env : Env) (db : Tables) (action entityType entityId : String) : Tables :=
  if env.auditCommits then
    { db with auditLog := db.auditLog ++ [⟨action, entityType, entityId, env.claims.userId, env.now⟩] }
  else db

theorem logAudit_sameCore (env : Env) (db : Tables) (action entityType entityId : String) :
    Tables.SameCore db (logAudit env db action entityType entityId) := by
  unfold logAudit
  split
  · exact ⟨rfl, rfl, rfl, rfl, rfl, rfl, rfl, rfl, rfl⟩
  · exact Tables.SameCore.refl db

/-- A request of one user outside production: no signer, no anchoring, every permission granted. -/
def Env.plain (userId : Int) (username : String) (role : Role) (now : Int) : Env where
  claims := ⟨userId, username, role, ""⟩
  now := now
  checkPermission _ _ := true
  integritySigningRequired := false
  isProductionLike := false
  integrityServiceToken := ""
  callSign _ := .error "the integrity service is not configured"
  callVerify _ _ _ := .error "the integrity service is not configured"
  fabricAnchor := none
  deviceLocation := .ok ()
  observerDisputeQuota := 5
  acceptsSurplusArgs := true
  order := ⟨id, fun l => List.Perm.refl l⟩
  auditCommits := true

end Inec
