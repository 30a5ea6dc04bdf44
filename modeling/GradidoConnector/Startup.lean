import GradidoConnector.Server
import GradidoConnector.VersionsManager

/-!
# The start of the server

Model of `GradidoBlockchainConnector::main` up to the point where the server answers requests, with
`ServerConfig::initServerCrypto` and `ConnectionManager::setConnectionsFromConfig`.

* `MapEnvironmentToConfig` is what the loaded files and the environment say. A configuration that
  cannot be loaded is logged and the start goes on, so it is one that says nothing.
* Two exceptions leave `main`: what `migrate` throws, and the `Poco::Exception` of everything else.
* The loggers, which come first, and the SSL manager are left out; of `initSSLClientContext` the
  `Context` is what can fail.
* `setConnection` and `setConnectionSqlite` give the pool its connection string. What `main` reads
  of it later is whether its sessions share a database.

Results:
* `initServerCrypto_eq_ok`: what a configuration must say to be accepted.
* **`exec_main`**: a start refuses its configuration, or migrates the database and listens.
* `exec_main_of_own`: a start on `:memory:` never serves.
-/

namespace GradidoConnector

open GradidoConnector.Base GradidoConnector.Base.Act VersionsManager

variable {b : Backend}

/-! ## The code -/

structure MapEnvironmentToConfig where
  getString : String → String → String
  /-- Throws for a value that is no number. -/
  getInt : String → Int → Except MigrationExn Int

inductive ServerSetupType
  | test
  | staging
  | production
  deriving DecidableEq

/-- The globals that `initServerCrypto` sets. -/
structure ServerConfig where
  g_ServerSetupType : ServerSetupType
  g_CryptoAppSecret : Option Bytes
  g_ApolloJwtPublicKey : Option Bytes
  g_JwtPrivateKey : Option Bytes
  g_JwtVerifySecret : String
  /-- In seconds. -/
  g_SessionValidDuration : Int

/-- What a start finds around it. -/
structure StartEnv where
  lib : Library
  /-- `sodium_hex2bin` into a buffer of so many bytes: how many it has written, `none` for
  an error. -/
  sodiumHex2bin : Nat → String → Option Nat
  loadMnemonicWordLists : Bool
  loadCryptoKeys : MapEnvironmentToConfig → Except MigrationExn Unit
  /-- The `Context` with `~/.gradido/cacert.pem`. -/
  sslContext : Except MigrationExn Unit
  /-- SQLite opens a database in memory for this connection string, another one for each session. -/
  inMemory : String → Bool
  inMemory_memory : inMemory ":memory:" = true
  initIota : MapEnvironmentToConfig → Except MigrationExn Unit
  /-- `Poco::URI(…)` -/
  parseUri : String → Except MigrationExn Unit
  readUnsecureFlags : MapEnvironmentToConfig → Except MigrationExn Unit
  /-- `Poco::Net::ServerSocket` on a port. -/
  listen : Nat → Except MigrationExn Unit

/-- A server that answers requests. -/
structure Service where
  config : ServerConfig
  jsonPort : Nat
  gradidoNodeUri : String
  /-- The connector and its connection string. -/
  connection : Dialect × String

namespace ServerConfig

def getServerSetupTypeFromString (serverSetupTypeString : String) : ServerSetupType :=
  if "test" = serverSetupTypeString then .test
  else if "staging" = serverSetupTypeString then .staging
  else if "production" = serverSetupTypeString then .production
  else .production

/-- `crypto_shorthash_KEYBYTES` -/
def shorthashKeyBytes : Nat := 16

/-- `crypto_sign_SECRETKEYBYTES` -/
def signSecretKeyBytes : Nat := 64

/-- `none` where it returns `false`. -/
def initServerCrypto (env : StartEnv) (cfg : MapEnvironmentToConfig) :
    Except MigrationExn (Option ServerConfig) :=
  let serverKey := cfg.getString "crypto.server_key" "a51ef8ac7ef1abf162fb7a65261acd7a"
  match env.sodiumHex2bin shorthashKeyBytes serverKey with
  | none => .ok none
  | some realBinSize =>
    if realBinSize ≠ shorthashKeyBytes then .ok none
    else
      let app_secret_string := cfg.getString "crypto.app_secret" "21ffbbc616fe"
      let apolloPublicKeyString := cfg.getString "crypto.jwt.apollo_public" ""
      let privateKeyString := cfg.getString "crypto.jwt.private" ""
      let g_JwtPrivateKey := if privateKeyString ≠ "" then env.lib.hexToBin privateKeyString else none
      match g_JwtPrivateKey with
      | none => .ok none
      | some key =>
        if key.length ≠ signSecretKeyBytes then .ok none
        else do
          let duration ← cfg.getInt "session.duration_seconds" 600
          return some {
            g_ServerSetupType := getServerSetupTypeFromString (cfg.getString "server_setup_type" "")
            g_CryptoAppSecret :=
              if "" ≠ app_secret_string then env.lib.hexToBin app_secret_string else none
            g_ApolloJwtPublicKey :=
              if apolloPublicKeyString ≠ "" then env.lib.hexToBin apolloPublicKeyString else none
            g_JwtPrivateKey
            g_JwtVerifySecret := cfg.getString "verify.jwt" ""
            g_SessionValidDuration := duration }

def initSSLClientContext (env : StartEnv) : Bool := env.sslContext.isOk

end ServerConfig

namespace ConnectionManager

def setConnectionsFromConfig (config : MapEnvironmentToConfig) :
    Except MigrationExn (Dialect × String) :=
  let sqlLite := config.getString "db.sqlite" ""
  if sqlLite ≠ "" then .ok (.sqlite, sqlLite)
  else do
    let port ← config.getInt "db.port" 3306
    return (.mysql, "host=" ++ config.getString "db.host" "localhost" ++ ";" ++
      "port=" ++ toString port ++ ";" ++
      "db=" ++ config.getString "db.name" "blockchain_connector" ++ ";" ++
      "user=" ++ config.getString "db.user" "root" ++ ";" ++
      "password=" ++ config.getString "db.password" "" ++ ";")

/-- The sessions of a pool for the connection each have a database of their own. -/
def opensOwn (env : StartEnv) : Dialect × String → Bool
  | (.mysql, _) => false
  | (.sqlite, uri) => env.inMemory uri

end ConnectionManager

namespace GradidoBlockchainConnector

/-- `(unsigned short)` of an `int`. -/
def unsignedShort (n : Int) : Nat := (n % 2 ^ 16).toNat

/-- `main` up to the call of `migrate`; `none` where it returns `EXIT_CONFIG`. -/
def configure (env : StartEnv) (configMapped : MapEnvironmentToConfig) :
    Except MigrationExn (Option Service) := do
  let json_port ← configMapped.getInt "json_server.port" 1271
  match ← ServerConfig.initServerCrypto env configMapped with
  | none => return none
  | some config =>
    if !env.loadMnemonicWordLists then return none
    else
      env.loadCryptoKeys configMapped
      if !ServerConfig.initSSLClientContext env then return none
      else
        let connection ← ConnectionManager.setConnectionsFromConfig configMapped
        env.initIota configMapped
        let gradidoNodeUri := configMapped.getString "gradido_node" "http://127.0.0.1:8340"
        env.parseUri gradidoNodeUri
        env.readUnsecureFlags configMapped
        return some ⟨config, unsignedShort json_port, gradidoNodeUri, connection⟩

/-- `main` up to `json_srv.start()`. -/
def main (env : StartEnv) (configMapped : MapEnvironmentToConfig) :
    Act (Connection b) MigrationExn (Option Service) := do
  match ← answer (configure env configMapped) with
  | none => return none
  | some service =>
    modify fun c => { c with own := ConnectionManager.opensOwn env service.connection }
    migrate
    answer (env.listen service.jsonPort)
    return some service

end GradidoBlockchainConnector

/-! ## What a configuration must say -/

section Configured

variable {env : StartEnv} {cfg : MapEnvironmentToConfig} {config : ServerConfig} {service : Service}

/-- The keys of a configuration that is accepted have their sizes. -/
theorem initServerCrypto_eq_ok (h : ServerConfig.initServerCrypto env cfg = .ok (some config)) :
    env.sodiumHex2bin ServerConfig.shorthashKeyBytes
        (cfg.getString "crypto.server_key" "a51ef8ac7ef1abf162fb7a65261acd7a") =
      some ServerConfig.shorthashKeyBytes ∧
    (∃ key, config.g_JwtPrivateKey = some key ∧ key.length = ServerConfig.signSecretKeyBytes) ∧
    cfg.getInt "session.duration_seconds" 600 = .ok config.g_SessionValidDuration := by
  unfold ServerConfig.initServerCrypto at h
  dsimp only at h
  split at h
  · cases h
  · rename_i realBinSize hkey
    split at h
    · cases h
    · rename_i hsize
      split at h
      · cases h
      · rename_i key hprivate
        split at h
        · cases h
        · rename_i hlength
          obtain ⟨duration, hduration, hconfig⟩ := bind_eq_ok.mp h
          cases hconfig
          exact ⟨hkey.trans (congrArg some (not_not.mp hsize)),
            ⟨key, hprivate, not_not.mp hlength⟩, hduration⟩

/-- What a configuration must say for the start to come to the database. -/
structure Configured (env : StartEnv) (cfg : MapEnvironmentToConfig) (service : Service) : Prop where
  crypto : ServerConfig.initServerCrypto env cfg = .ok (some service.config)
  connection : ConnectionManager.setConnectionsFromConfig cfg = .ok service.connection
  wordLists : env.loadMnemonicWordLists = true
  context : ServerConfig.initSSLClientContext env = true
  port : ∃ n, cfg.getInt "json_server.port" 1271 = .ok n ∧
    service.jsonPort = GradidoBlockchainConnector.unsignedShort n

theorem configured_of_configure
    (h : GradidoBlockchainConnector.configure env cfg = .ok (some service)) :
    Configured env cfg service := by
  unfold GradidoBlockchainConnector.configure at h
  obtain ⟨n, hport, h⟩ := bind_eq_ok.mp h
  obtain ⟨crypto, hcrypto, h⟩ := bind_eq_ok.mp h
  cases crypto with
  | none => cases h
  | some config =>
    dsimp only at h
    split at h
    · cases h
    · rename_i hlists
      obtain ⟨_, -, h⟩ := bind_eq_ok.mp h
      split at h
      · cases h
      · rename_i hcontext
        obtain ⟨connection, hconnection, h⟩ := bind_eq_ok.mp h
        obtain ⟨_, -, h⟩ := bind_eq_ok.mp h
        obtain ⟨_, -, h⟩ := bind_eq_ok.mp h
        obtain ⟨_, -, h⟩ := bind_eq_ok.mp h
        cases h
        exact ⟨hcrypto, hconnection, by simpa using hlists, by simpa using hcontext, n, hport, rfl⟩

end Configured

/-! ## A start -/

namespace GradidoBlockchainConnector

/-- How a start ends when the migration ends with a verdict. -/
def outcome (env : StartEnv) (configMapped : MapEnvironmentToConfig)
    (migrated : Except MigrationExn Unit) : Except MigrationExn (Option Service) := do
  match ← configure env configMapped with
  | none => return none
  | some service =>
    migrated
    env.listen service.jsonPort
    return some service

variable {env : StartEnv} {configMapped : MapEnvironmentToConfig}

/-- **A start** refuses its configuration, or migrates the database and listens. -/
theorem exec_main (c : Connection b)
    (hshared : ∀ service, configure env configMapped = .ok (some service) →
      ConnectionManager.opensOwn env service.connection = false) :
    exec (main env configMapped) c =
      (outcome env configMapped (verdict c.db),
        match configure env configMapped with
        | .ok (some _) => after { c with own := false } steps
        | _ => c) := by
  unfold main outcome
  rw [exec_bind, exec_answer]
  cases hconfigured : configure env configMapped with
  | error e => rfl
  | ok configured =>
    cases configured with
    | none => rfl
    | some service =>
      have hmigrate : exec migrate { c with own := false } =
          (verdict c.db, after { c with own := false } steps) := exec_migrate rfl
      simp only [exec_bind, exec_modify, hshared service hconfigured, hmigrate, exec_answer]
      cases verdict c.db with
      | error e => rfl
      | ok _ =>
        cases hlisten : env.listen service.jsonPort with
        | error e =>
          simp only [bind, Except.bind, hlisten]
        | ok _ =>
          simp only [bind, Except.bind, hlisten]
          rfl

/-- A start on a database in memory throws, whatever the database. -/
theorem exec_main_of_own (c : Connection b) {service : Service}
    (hconfigured : configure env configMapped = .ok (some service))
    (hown : ConnectionManager.opensOwn env service.connection = true) :
    (exec (main env configMapped) c).1 = .error noMigrationTable := by
  have hmigrate : (exec migrate { c with own := true }).1 = .error noMigrationTable := by
    rw [exec_migrate_of_own rfl]
  unfold main
  simp only [exec_bind, exec_answer, hconfigured, exec_modify, hown]
  rcases hrun : exec migrate { c with own := true } with ⟨r, d⟩
  rw [hrun] at hmigrate
  cases hmigrate
  rfl

/-- A start that serves was configured, and its migration went through. -/
theorem outcome_eq_ok {migrated : Except MigrationExn Unit} {service : Service}
    (h : outcome env configMapped migrated = .ok (some service)) :
    configure env configMapped = .ok (some service) ∧ migrated = .ok () := by
  unfold outcome at h
  obtain ⟨configured, hconfigured, h⟩ := bind_eq_ok.mp h
  cases configured with
  | none => cases h
  | some service' =>
    dsimp only at h
    obtain ⟨_, hmigrated, h⟩ := bind_eq_ok.mp h
    obtain ⟨_, -, h⟩ := bind_eq_ok.mp h
    cases h
    exact ⟨hconfigured, hmigrated⟩

end GradidoBlockchainConnector

end GradidoConnector
