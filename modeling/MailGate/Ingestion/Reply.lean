import MailGate.Ingestion.Sync
import MailGate.Lib.Exceptions

/-!
# What a FETCH reply hands over

`imaplib` queues the untagged FETCH responses of a connection and returns all of them with
the next FETCH command.  The reply to `BODY.PEEK[]` thus has one tuple with the message, and
one-line items before and behind it: the closing bracket, and data that nobody asked for,
such as a change of flags.  This file settles which bytes of such a reply are stored.
-/

namespace MailGate

/-- Items without a literal. -/
def lineItems (lines : List Bytes) : List Item := lines.map .bytes

/-- The reply with the message `literal`, the lines `before` that arrived earlier and the
lines `behind` that arrived later. -/
def bodyReply (before : List Bytes) (header literal : Bytes) (behind : List Bytes) : List Item :=
  lineItems before ++ [.tuple [some header, some literal]] ++ lineItems behind

/-- The outcome of fetching a message whose literal is `literal`: the literal goes to
`_store_message`, and an empty one is refused. -/
def HandsOver (literal : Bytes) : Except SyncExn Fetched → Prop
  | .ok item => item.raw = literal ∧ item.unsafeReason = []
  | .error exc => literal = [] ∧ exc = .mailboxSync (py "empty_message")

/-- The helper returns the first line if there is one before the message. -/
lemma responseBytes_bodyReply (before : List Bytes) (header literal : Bytes)
    (behind : List Bytes) :
    responseBytes (bodyReply before header literal behind) = before.head?.getD literal := by
  cases before with
  | nil => rfl
  | cons line before => rfl

/-- After a FETCH of the size that names a size within the limit, the outcome depends on the
reply to `BODY.PEEK[]` alone. -/
lemma fetchMessage_of_body {env : SyncEnv} {tick uid size : ℕ} {sizeReply reply : List Item}
    (hsize : env.imap.uid (2 * tick + 1) (.fetchSize (PyStr.ofNat uid)) =
      .ok (py "OK", sizeReply))
    (hnum : messageSize sizeReply = .ok (some size)) (hle : size ≤ maxMessageBytes)
    (hbody : env.imap.uid (2 * tick + 2) (.fetchBody (PyStr.ofNat uid)) = .ok (py "OK", reply)) :
    fetchMessage env tick uid =
      if responseBytes reply = [] then .error (.mailboxSync (py "empty_message"))
      else .ok { raw := responseBytes reply } := by
  have hlt : ¬ size > maxMessageBytes := by omega
  simp only [fetchMessage, hsize, Exceptions.ok_bind, hnum, ne_eq, not_true_eq_false, if_false,
    hlt, hbody]
  rfl

/-- The bytes handed over are the literal exactly if no line stands before the message, or
the first such line happens to be the literal itself. -/
theorem fetchMessage_handsOver_iff (env : SyncEnv) (tick uid size : ℕ) (sizeReply : List Item)
    (before : List Bytes) (header literal : Bytes) (behind : List Bytes)
    (hsize : env.imap.uid (2 * tick + 1) (.fetchSize (PyStr.ofNat uid)) =
      .ok (py "OK", sizeReply))
    (hnum : messageSize sizeReply = .ok (some size)) (hle : size ≤ maxMessageBytes)
    (hbody : env.imap.uid (2 * tick + 2) (.fetchBody (PyStr.ofNat uid)) =
      .ok (py "OK", bodyReply before header literal behind)) :
    HandsOver literal (fetchMessage env tick uid) ↔ ∀ line ∈ before.head?, line = literal := by
  rw [fetchMessage_of_body hsize hnum hle hbody, responseBytes_bodyReply]
  cases before with
  | nil =>
    by_cases hempty : literal = []
    · simp [hempty, HandsOver]
    · simp [hempty, HandsOver]
  | cons line before =>
    -- the first line is taken, whatever follows it
    by_cases hempty : line = []
    · simp [hempty, HandsOver, eq_comm]
    · simp [hempty, HandsOver]

/-- The replies to the two FETCH commands for the message 7: its flags change before its
body arrives. -/
def flagsFirst (before : List Bytes) : ℕ → UidCommand → Except SyncExn (PyStr × List Item)
  | 1, _ => .ok (py "OK", [.bytes (bytes "7 (RFC822.SIZE 5)")])
  | _, _ =>
      .ok (py "OK", bodyReply before (bytes "7 (BODY[] \x7b5\x7d") (bytes "Hello") [bytes ")"])

/-- A run that meets these replies. -/
def flagsEnv (before : List Bytes) : SyncEnv :=
  sampleEnv (sampleLibrary blankMessage [] []) (flagsFirst before)

theorem fetchMessage_handsOver_hello :
    HandsOver (bytes "Hello") (fetchMessage (flagsEnv []) 0 7) :=
  (fetchMessage_handsOver_iff (flagsEnv []) 0 7 5 [.bytes (bytes "7 (RFC822.SIZE 5)")] []
    (bytes "7 (BODY[] \x7b5\x7d") (bytes "Hello") [bytes ")"] rfl (by decide) (by decide) rfl).2
    (by simp)

/-- A change of flags that the server reported on its own. -/
def flagsLine : Bytes := bytes "7 (FLAGS (\\Seen))"

/-- With the change of flags in front, its line is stored as the mail. -/
theorem fetchMessage_hands_over_flags :
    flagsFirst [flagsLine] 2 (.fetchBody (py "7")) =
        .ok (py "OK", [.bytes (bytes "7 (FLAGS (\\Seen))"),
          .tuple [some (bytes "7 (BODY[] \x7b5\x7d"), some (bytes "Hello")], .bytes (bytes ")")]) ∧
      fetchMessage (flagsEnv [flagsLine]) 0 7 = .ok { raw := flagsLine } ∧
      ¬ HandsOver (bytes "Hello") (fetchMessage (flagsEnv [flagsLine]) 0 7) := by
  have hnum : messageSize [.bytes (bytes "7 (RFC822.SIZE 5)")] = .ok (some 5) := by decide
  have hreply : responseBytes (bodyReply [flagsLine] (bytes "7 (BODY[] \x7b5\x7d") (bytes "Hello")
      [bytes ")"]) = flagsLine := rfl
  have hfetch : fetchMessage (flagsEnv [flagsLine]) 0 7 = .ok { raw := flagsLine } := by
    have h := @fetchMessage_of_body (flagsEnv [flagsLine]) 0 7 5 _ _ rfl hnum (by decide) rfl
    rw [hreply, if_neg (by decide)] at h
    exact h
  refine ⟨rfl, hfetch, ?_⟩
  rw [hfetch]
  rintro ⟨hraw, -⟩
  exact absurd hraw (by decide)

end MailGate
