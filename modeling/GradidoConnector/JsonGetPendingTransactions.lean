import GradidoConnector.JsonListTransactions

/-!
# Listing the pending transactions

Model of `JSONInterface/JsonGetPendingTransactions.cpp`, `handle`, and of `listAsJson`,
`StateToString` and `getStateString` in `model/PendingTransactions.cpp`. The list is given out from
its newest entry to its oldest, and nobody is asked for a token.

* `getTransactionTypeString` is of the `gradido_blockchain` library, which has a name for each type.
* A time is given in milliseconds, rounded towards 1970.
-/

namespace GradidoConnector.PendingTransactions

variable (getTransactionTypeString : TransactionType → String)

/-- `StateToString` -/
def stateToString : State → String
  | .sended => "sended"
  | .confirmed => "confirmed"
  | .rejected => "rejected"

/-- `entry` of `listAsJson` -/
def entryAsJson (pending : PendingTransaction) : Json :=
  .obj [("messageId", .str (cString pending.iotaMessageId)),
    ("transactionType", .str (cString (getTransactionTypeString pending.transactionType))),
    ("created", .int (pending.created.tdiv 1000)),
    ("state", .str (stateToString pending.state)),
    ("errorMessage", .str (cString pending.errorMessage))]

def listAsJson (st : Store) : Json := .arr (st.reverse.map (entryAsJson getTransactionTypeString))

end GradidoConnector.PendingTransactions

namespace GradidoConnector.JsonGetPendingTransactions

open PendingTransactions

def handle (getTransactionTypeString : TransactionType → String) (st : Store) : Document :=
  Document.stateSuccess.addMember "pendingTransactions" (listAsJson getTransactionTypeString st)

end GradidoConnector.JsonGetPendingTransactions
