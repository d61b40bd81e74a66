import RoomBot.Store.Basic

/-!
# A store that may refuse

Disks fail.  A vault is a store in front of which a failure may be waiting: the next call meets
the failure instead of the store, and nothing happens to the store.  What the bot does about it
can then be told for every call and every failure.
-/

namespace RoomBot

/-- A store, and the failure that its next call will meet. -/
structure Vault where
  store : Store
  pending : Option Failure

namespace Vault

/-- Calls the store, unless a failure is waiting. -/
def call {α : Type} (ask : Store → Except Failure α × Store) (vault : Vault) :
    Except Failure α × Vault :=
  match vault.pending with
  | some failure => (.error failure, ⟨vault.store, none⟩)
  | none =>
    let (answer, store) := ask vault.store
    (answer, ⟨store, none⟩)

end Vault

end RoomBot
