import Vrata.Lib.Program
import Vrata.Store.Interchange

/-!
# Programs that use a store

The handlers of the API, the gateway and the resolution of secrets know a store only by its interface.
They are programs over its calls. `Call.exec` answers the calls when it is said what is read and how a
write is done: for the bolt store these are the store itself and its own operations, for the Raft store
the local replica and the way to the leader.
-/

namespace Vrata.Store

variable {S : Schema} {σ : Type}

/-- What a call returns. -/
@[reducible]
def Call.Result : Call S → Type
  | .write _ => Except StoreError Unit
  | .list .secret => Except StoreError (List SecretSummary)
  | .list .snapshot => Except StoreError (List SnapshotSummary)
  | .list k => Except StoreError (List (S.Entity k))
  | .get k _ => Except StoreError (S.Entity k)
  | .getActive => Except StoreError (S.Entity .snapshot)

/-- A program that uses a store. -/
abbrev Client (S : Schema) : Type → Type := Program (Call S) Call.Result

def Call.request (c : Call S) : Client S c.Result := Program.ask c

/-- The answer to a call, where `view` is what the reads see of the state. -/
def Call.exec (cipher : Option Cipher) (view : σ → Bolt)
    (write : Op S → σ → Except StoreError Unit × σ) : (c : Call S) → σ → c.Result × σ
  | .write op, s => write op s
  | .list .route, s => (listRoutes S (view s), s)
  | .list .group, s => (listGroups S (view s), s)
  | .list .middleware, s => (listMiddlewares S (view s), s)
  | .list .listener, s => (listListeners S (view s), s)
  | .list .destination, s => (listDestinations S (view s), s)
  | .list .secret, s => (listSecrets S cipher (view s), s)
  | .list .snapshot, s => (listSnapshots S cipher (view s), s)
  | .get .route id, s => (getRoute S id (view s), s)
  | .get .group id, s => (getGroup S id (view s), s)
  | .get .middleware id, s => (getMiddleware S id (view s), s)
  | .get .listener id, s => (getListener S id (view s), s)
  | .get .destination id, s => (getDestination S id (view s), s)
  | .get .secret id, s => (getSecret S cipher id (view s), s)
  | .get .snapshot id, s => (getSnapshot S cipher id (view s), s)
  | .getActive, s => (getActiveSnapshot S cipher (view s), s)

/-- What the reads of a store return. -/
def answers {S : Schema} (cipher : Option Cipher) (b : Bolt) (call : Call S) : call.Result :=
  (call.exec cipher (fun b => b) (fun _ b => (.ok (), b)) b).1

end Vrata.Store
