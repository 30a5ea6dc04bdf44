import GradidoConnector.Base.Members
import GradidoConnector.Basic

/-!
# Which handler a request gets

Model of `JSONInterface/JsonRequestHandlerFactory.cpp`, `createRequestHandler`, and of
`JsonUnknown`. The first part of the path chooses the handler.

* `mRemoveGETParameters` is `^/([a-zA-Z0-9_-]*)`. Its quantifier is greedy and nothing follows it,
  so the match goes as far as the class does (`extract`).
* The header `X-Real-IP` is only read into a `Poco::Net::IPAddress`, which throws where it is none;
  the address is not used. The log line and the cookie `GRADIDO_LOGIN` change nothing a request
  does.

Results:
* `extract_eq_iff`: what the extracted part is.
* **`createRequestHandler_eq_iff`**: a handler is created for its own path alone, whatever follows
  the path.
-/

namespace GradidoConnector

open GradidoConnector.Base

/-- The handler classes of the factory. -/
inductive RequestHandler
  | packTransaction
  | sendTransactionIota
  | creation
  | transfer
  | registerAddress
  | login
  | openConnection
  | transactionListener
  | listTransactions
  | getPendingTransactions
  | unknown
  deriving DecidableEq

namespace JsonRequestHandlerFactory

/-! ## The code -/

/-- `[a-zA-Z0-9_-]` -/
def isPathChar (c : Char) : Bool := c.isAlphanum || c == '_' || c == '-'

/-- `mRemoveGETParameters.extract(uri, url_first_part)`: the match, empty where there is none. -/
def extract (uri : String) : String :=
  match uri.toList with
  | c :: rest => if c = '/' then String.ofList (c :: rest.takeWhile isPathChar) else ""
  | [] => ""

/-- The paths of the chain of comparisons, in its order. -/
def paths : List (String × RequestHandler) :=
  [("/packTransaction", .packTransaction), ("/sendTransactionIota", .sendTransactionIota),
    ("/creation", .creation), ("/transfer", .transfer), ("/registerAddress", .registerAddress),
    ("/login", .login), ("/openCommunication", .openConnection), ("/notify", .transactionListener),
    ("/listTransactions", .listTransactions), ("/listPending", .getPendingTransactions)]

/-- The handler for a first part. -/
def handlerFor (url_first_part : String) : RequestHandler :=
  (paths.lookup url_first_part).getD .unknown

/-- `createRequestHandler`. `parseAddress` is the constructor of `Poco::Net::IPAddress`; the address
of the connection itself can be read. -/
def createRequestHandler (parseAddress : String → Except Exn Unit) (uri : String)
    (realIp : Option String) : Except Exn RequestHandler := do
  match realIp with
  | some client_host_string => parseAddress client_host_string
  | none => pure ()
  return handlerFor (extract uri)

/-! ## Paths and handlers -/

/-- The path ends where `rest` begins: with nothing, or with a character outside the class. -/
def Ends (rest : List Char) : Prop := ∀ c ∈ rest.head?, isPathChar c = false

/-- The request is for the path: it begins its URI, and ends there. -/
def For (uri path : String) : Prop := ∃ rest, uri.toList = path.toList ++ rest ∧ Ends rest

theorem takeWhile_eq_iff {chars part : List Char} (hpart : part.all isPathChar) :
    chars.takeWhile isPathChar = part ↔ ∃ rest, chars = part ++ rest ∧ Ends rest := by
  constructor
  · rintro rfl
    refine ⟨chars.dropWhile isPathChar, (List.takeWhile_append_dropWhile ..).symm, fun c hc => ?_⟩
    have hhead := List.head?_dropWhile_not isPathChar chars
    rw [Option.mem_def.mp hc] at hhead
    exact hhead
  · rintro ⟨rest, rfl, hends⟩
    rw [List.takeWhile_append_of_pos (List.all_eq_true.mp hpart)]
    cases rest with
    | nil => simp
    | cons c rest =>
      have hc : isPathChar c = false := hends c rfl
      rw [List.takeWhile_cons, hc]
      simp

/-- **The extracted part is a path of the class exactly for the requests for it.** -/
theorem extract_eq_iff {uri : String} {part : List Char} (hpart : part.all isPathChar) :
    extract uri = String.ofList ('/' :: part) ↔ For uri (String.ofList ('/' :: part)) := by
  unfold extract For
  rw [String.toList_ofList]
  cases huri : uri.toList with
  | nil => simp [← String.toList_inj]
  | cons c chars =>
    simp only [← String.toList_inj, List.cons_append, List.cons.injEq]
    by_cases hslash : c = '/'
    · rw [if_pos hslash, String.toList_ofList, String.toList_ofList, List.cons.injEq]
      simp only [hslash, true_and]
      exact takeWhile_eq_iff hpart
    · simp [hslash]

/-- The paths are of the class, and no two entries have one path or one handler. -/
theorem paths_spec :
    (∀ entry ∈ paths, ∃ part : List Char, part.all isPathChar ∧ entry.1 = String.ofList ('/' :: part)) ∧
      (paths.map (·.1)).Nodup ∧ (paths.map (·.2)).Nodup ∧ ∀ entry ∈ paths, entry.2 ≠ .unknown := by
  refine ⟨fun entry he => ⟨entry.1.toList.tail, ?_⟩, by decide, by decide, by decide⟩
  revert entry
  decide

theorem handlerFor_eq_iff {first path : String} {handler : RequestHandler}
    (h : (path, handler) ∈ paths) : handlerFor first = handler ↔ first = path := by
  obtain ⟨-, hpaths, hhandlers, hknown⟩ := paths_spec
  unfold handlerFor
  constructor
  · intro hfirst
    cases hlookup : paths.lookup first with
    | none =>
      rw [hlookup] at hfirst
      exact absurd hfirst.symm (hknown _ h)
    | some found =>
      rw [hlookup] at hfirst
      have hmem := Members.mem_of_lookup hlookup
      exact congrArg Prod.fst (List.inj_on_of_nodup_map hhandlers hmem h hfirst)
  · rintro rfl
    cases hlookup : paths.lookup first with
    | none =>
      have hnone := List.lookup_eq_none_iff.mp hlookup _ h
      simp at hnone
    | some found =>
      have hmem := Members.mem_of_lookup hlookup
      exact congrArg Prod.snd (List.inj_on_of_nodup_map hpaths hmem h rfl)

/-- **A handler is created for its own path alone**, whatever follows the path, and no other part of
a request matters but an address that cannot be read. -/
theorem createRequestHandler_eq_iff {parseAddress : String → Except Exn Unit} {uri path : String}
    {realIp : Option String} {handler : RequestHandler} (h : (path, handler) ∈ paths) :
    createRequestHandler parseAddress uri realIp = .ok handler ↔
      For uri path ∧ ∀ host ∈ realIp, parseAddress host = .ok () := by
  obtain ⟨part, hpart, hpath⟩ := paths_spec.1 _ h
  have hhandler : handlerFor (extract uri) = handler ↔ For uri path := by
    rw [handlerFor_eq_iff h, show path = _ from hpath]
    exact extract_eq_iff hpart
  cases realIp with
  | none => simp [createRequestHandler, pure, Except.pure, hhandler]
  | some host =>
    cases hparse : parseAddress host with
    | ok read => simp [createRequestHandler, pure, Except.pure, bind, Except.bind, hhandler, hparse]
    | error e => simp [createRequestHandler, bind, Except.bind, hparse]

end JsonRequestHandlerFactory

namespace JsonUnknown

def handle : Document := .stateError "unknown call"

end JsonUnknown

end GradidoConnector
