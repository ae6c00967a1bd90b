import Mathlib.Data.List.Sort
import MailGate.Models

/-!
# Rotation of the mailbox credentials

The command `rotate_mailbox_credentials`: one transaction that re-encrypts the password of
every mailbox with the primary key.
-/

namespace MailGate

/-- What the command meets outside the database. -/
structure RotationEnv where
  /-- `keyring.primary_id`. -/
  primaryId : Option PyStr
  /-- `reencrypt_secret` at its call with this number; `none` is an exception. -/
  reencryptSecret : ℕ → Bytes → Option (Bytes × Bool)
  /-- The readings for `updated_at`. -/
  clock : ℕ → Time
  /-- The reading for the audit event. -/
  auditAt : Time

/-- The loop over the locked rows: the number of rotated passwords and the database. -/
def rotateMailboxes (env : RotationEnv) : ℕ → List Mailbox → ℕ → Db → Option (ℕ × Db)
  | _, [], rotated, db => some (rotated, db)
  | tick, mailbox :: mailboxes, rotated, db => do
      let (ciphertext, changed) ← env.reencryptSecret tick mailbox.passwordEncrypted
      if ¬ changed then rotateMailboxes env (tick + 1) mailboxes rotated db
      else
        let set (m : Mailbox) : Mailbox :=
          { m with
            passwordEncrypted := ciphertext
            configVersion := mailbox.configVersion + 1
            updatedAt := env.clock tick }
        match db.updateMailboxes (·.id = mailbox.id) set with
        | .error _ => none
        | .ok (_, db) => rotateMailboxes env (tick + 1) mailboxes (rotated + 1) db

/-- The command `rotate_mailbox_credentials`; `none` is a `CommandError`. -/
def rotateMailboxCredentials (env : RotationEnv) (db : Db) : Option Db := do
  let primaryId ← env.primaryId
  let rows := db.mailboxes.insertionSort fun a b => a.id ≤ b.id
  let (rotated, db) ← rotateMailboxes env 0 rows 0 db
  return db.writeAudit (py "system:key-rotation") (py "credentials.rotated") none
    [(py "primary_key_id", .text primaryId), (py "rotated", .number rotated),
      (py "verified", .number rows.length)] env.auditAt

end MailGate
