import PwndaWallet.Vault.Operations

/-!
# Operations on one vault

Any number of vault operations over one store, interleaved at their awaits. Each has a book of what it
last read or wrote and of the entries that its writes left out. `Orderly` runs are those in which every
operation writes over the vault that it read.
-/

namespace Vault

open Tasks

/-! ## Books -/

/-- The ids of the entries of a stored vault. -/
def idsOf : Option Stored → List String
  | some (.v3 v) => v.wallets.map (·.id)
  | _ => []

structure Book where
  /-- what the operation last read or wrote -/
  known : Option (Option Stored)
  /-- its last read failed -/
  blind : Bool
  /-- the entries that it wrote away, until it reports -/
  dropped : List String
deriving DecidableEq

def Book.blank : Book := { known := none, blind := false, dropped := [] }

def Book.ids (b : Book) : List String := idsOf (b.known.getD none)

def Book.note (b : Book) : (o : VaultOp) → o.Ans → Book
  | .get, some stored => { b with known := some (b.known.getD stored), blind := false }
  | .get, none => { b with blind := true }
  | .getStore, false => { b with blind := true }
  | .decrypt, false => { b with blind := true }
  | .set next, true =>
    { known := some (some (.v3 next)), blind := false
      dropped := b.dropped ++ b.ids.filter fun id => id ∉ idsOf (some (.v3 next)) }
  | .delete, true => { b with known := some none, dropped := b.dropped ++ b.ids }
  | .report _, _ => { b with known := none, dropped := [] }
  | _, _ => b

/-! ## The system -/

structure VaultWorld where
  stored : Option Stored
  backup : Option Stored
  /-- the entries of the vaults whose save was reported as done -/
  reported : List String
  /-- the entries whose removal was reported as done -/
  removed : List String
  books : Nat → Book

/-- How an await ends. -/
inductive Outcome where
  | fulfilled
  | rejected
  | height (h : Option Nat)
  | inUse (answer : Option Bool)
deriving DecidableEq

def VaultWorld.answer (w : VaultWorld) : (o : VaultOp) → Outcome → o.Ans
  | .get, out => if out = .rejected then none else some w.stored
  | .hasBackup, out => if out = .rejected then none else some w.backup.isSome
  | .tip _, .height h => h
  | .tip _, _ => none
  | .polyseedRestoreHeight _, .height h => h
  | .polyseedRestoreHeight _, _ => none
  | .hostWalletInUse _, .inUse answer => answer
  | .hostWalletInUse _, _ => none
  | .report _, _ => ()
  | .getStore, out => out ≠ .rejected
  | .decrypt, out => out ≠ .rejected
  | .setBackup _, out => out ≠ .rejected
  | .encrypt, out => out ≠ .rejected
  | .set _, out => out ≠ .rejected
  | .save, out => out ≠ .rejected
  | .delete, out => out ≠ .rejected
  | .deleteBackup, out => out ≠ .rejected

/-- What the answer to operation `i` does to the store and to the reports. -/
def VaultWorld.effect (w : VaultWorld) (i : Nat) : (o : VaultOp) → o.Ans → VaultWorld
  | .set next, true => { w with stored := some (.v3 next) }
  | .setBackup encrypted, true => { w with backup := some encrypted }
  | .delete, true => { w with stored := none }
  | .deleteBackup, true => { w with backup := none }
  | .report .saved, _ => { w with reported := w.reported ++ (w.books i).ids }
  | .report (.removed id), _ => { w with removed := w.removed ++ [id] }
  | _, _ => w

abbrev VaultEntry := VaultCall × (Nat → SchemaOpts)

def vaultSys (loc : Js.Intl) : Sys VaultOp VaultOp.Ans VaultWorld Outcome VaultEntry where
  respond i o out w :=
    let r := w.answer o out
    (r, { w.effect i o r with books := Function.update w.books i ((w.books i).note o r) })
  body e := (e.1.body loc e.2).detach
  spawned _ := none
  restart w := w

abbrev VaultCfg := Cfg VaultOp VaultOp.Ans VaultWorld VaultEntry

/-- The app over a stored vault. What is in it was reported as saved before. -/
def opened (stored backup : Option Stored) : VaultCfg :=
  ⟨{ stored, backup, reported := idsOf stored, removed := [], books := fun _ => .blank }, []⟩

/-! ## Orderly runs -/

/-- The context's wallets are Xelis ones, or the first of a kind that the payload has an entry for. -/
def describes (payload : VaultPayload) (v3 : VaultPayloadV3) (a : Option String) : Bool :=
  v3.wallets.all fun w => groupIdForWallet v3 a != some (groupKey w) || w.kind == .xelis ||
    (payload.describes w.kind && firstOf v3.wallets (groupKey w) w.kind == some w)

/-- What a flat save makes of the vault that it read describes the whole context. -/
def VaultCall.fits (loc : Js.Intl) (call : VaultCall) (b : Book) : Bool :=
  match call, b.known with
  | .saveFlat edit a, some (some (.v3 v)) => (edit.apply loc (projectV3ToV2 v a)).all (describes · v a)
  | _, _ => true

/-- The await was rejected. -/
def isRejection : (o : VaultOp) → o.Ans → Bool
  | .get, r => r.isNone
  | .hasBackup, r => r.isNone
  | .getStore, r => !r
  | .decrypt, r => !r
  | .setBackup _, r => !r
  | .encrypt, r => !r
  | .set _, r => !r
  | .save, r => !r
  | .delete, r => !r
  | .deleteBackup, r => !r
  | _, _ => false

def isWrite : (o : VaultOp) → o.Ans → Bool
  | .set _, r => r
  | .delete, r => r
  | _, _ => false

/-- A later read finds what the operation knows; and a save has a read that went well, or nothing to
lose, behind it, and a flat one describes its context. -/
def finds (loc : Js.Intl) (call : VaultCall) (b : Book) : (o : VaultOp) → o.Ans → Bool
  | .get, some stored => b.known == none || b.known == some stored
  | .set _, true => (!b.blind || b.ids == []) && call.fits loc b
  | _, _ => true

/-- The answers of an orderly run. Nothing is rejected once an entry is gone. -/
def expected (loc : Js.Intl) (e : VaultEntry) (b : Book) (o : VaultOp) (r : o.Ans) : Prop :=
  (isRejection o r → b.dropped = []) ∧ finds loc e.1 b o r

/-- An answer to operation `i` is as expected, and a write finds the stored vault as it was read. -/
def orderlyAnswer (loc : Js.Intl) (w : VaultWorld) (i : Nat) (out : Outcome) :
    Option (Task VaultOp VaultOp.Ans VaultEntry) → Prop
  | some ⟨e, .call o _, true⟩ =>
    expected loc e (w.books i) o (w.answer o out) ∧
      (isWrite o (w.answer o out) → (w.books i).known = some w.stored)
  | _ => True

/-- The moves of an orderly run. -/
def Orderly (loc : Js.Intl) (c : VaultCfg) : Move Outcome VaultEntry → Prop
  | .answer i out => orderlyAnswer loc c.world i out c.tasks[i]?
  | .crash => False
  | _ => True

instance (loc : Js.Intl) (e : VaultEntry) (b : Book) (o : VaultOp) (r : o.Ans) : Decidable (expected loc e b o r) :=
  inferInstanceAs (Decidable ((isRejection o r → b.dropped = []) ∧ finds loc e.1 b o r))

instance (loc : Js.Intl) (w : VaultWorld) (i : Nat) (out : Outcome) : ∀ t, Decidable (orderlyAnswer loc w i out t)
  | some ⟨e, .call o _, true⟩ => inferInstanceAs (Decidable (expected loc e (w.books i) o (w.answer o out) ∧
      (isWrite o (w.answer o out) → (w.books i).known = some w.stored)))
  | some ⟨_, .call _ _, false⟩ => .isTrue trivial
  | some ⟨_, .ret _, _⟩ => .isTrue trivial
  | some ⟨_, .fail _, _⟩ => .isTrue trivial
  | some ⟨_, .cut, _⟩ => .isTrue trivial
  | none => .isTrue trivial

instance (loc : Js.Intl) (c : VaultCfg) : ∀ m, Decidable (Orderly loc c m)
  | .answer i out => inferInstanceAs (Decidable (orderlyAnswer loc c.world i out c.tasks[i]?))
  | .crash => .isFalse id
  | .start _ => .isTrue trivial
  | .ask _ => .isTrue trivial

end Vault
