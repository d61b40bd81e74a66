import RoomBot.Proofs.Text.Decimal
import RoomBot.Telegram.Delivery
import RoomBot.Telegram.Message

/-!
# Chats and their rooms

A room has the name of its chat, so a notice for the room of a chat finds its way back to that chat
(`chatOfRoom?_roomOfChat`).  Whatever becomes of a notice on its way, the requests that reach the
server for it are all for the chat of its room (`addressed_sendNotice`).
-/

namespace RoomBot.Telegram

/-! ## Names of rooms -/

/-- The numbers that a chat can have. -/
def IsChat (chat : Int) : Prop := -9223372036854775808 ≤ chat ∧ chat ≤ 9223372036854775807

instance (chat : Int) : Decidable (IsChat chat) := inferInstanceAs (Decidable (_ ∧ _))

@[simp] lemma isEmpty_toDigits (n : Nat) : (Nat.toDigits 10 n).isEmpty = false :=
  List.isEmpty_eq_false_iff.2 Nat.toDigits_ne_nil

@[simp] lemma all_isDigit_toDigits (n : Nat) : (Nat.toDigits 10 n).all Char.isDigit = true :=
  List.all_eq_true.2 (Text.isDigit_of_mem_toDigits n)

lemma chatOfRoom?_of_digits {room : String} {n : Nat} (hroom : room.toList = Nat.toDigits 10 n)
    (hrange : IsChat n) : chatOfRoom? room = some (n : Int) := by
  have hdigits := Text.isDigit_of_mem_toDigits n
  rw [← hroom] at hdigits
  obtain ⟨hleast, hgreatest⟩ := hrange
  unfold chatOfRoom?
  split
  · rename_i hminus
    exact absurd (hdigits '-' (hminus ▸ List.mem_cons_self)) (by decide)
  · rename_i hplus
    exact absurd (hdigits '+' (hplus ▸ List.mem_cons_self)) (by decide)
  · simp [hroom, Option.filter, hleast, hgreatest]

lemma chatOfRoom?_of_minus {room : String} {n : Nat}
    (hroom : room.toList = '-' :: Nat.toDigits 10 n) (hrange : IsChat (-(n : Int))) :
    chatOfRoom? room = some (-(n : Int)) := by
  obtain ⟨hleast, hgreatest⟩ := hrange
  unfold chatOfRoom?
  rw [hroom]
  simp [Option.filter, hleast, hgreatest]

/-- A notice for the room of a chat finds its way back. -/
theorem chatOfRoom?_roomOfChat {chat : Int} (h : IsChat chat) :
    chatOfRoom? (roomOfChat chat) = some chat := by
  have hwritten := Text.toList_toString chat
  split at hwritten
  · have hchat : -(chat.natAbs : Int) = chat := by omega
    have hread := chatOfRoom?_of_minus hwritten
    rw [hchat] at hread
    exact hread h
  · have hchat : (chat.natAbs : Int) = chat := by omega
    have hread := chatOfRoom?_of_digits hwritten
    rw [hchat] at hread
    exact hread h

/-! ## Requests that reach the server -/

/-- More requests have reached the server, all for this chat. -/
def Line.Addressed (chat : Int) (before after : Line) : Prop :=
  ∃ requests, after.received = before.received ++ requests ∧ ∀ request ∈ requests,
    request.chat = chat

namespace Line

variable {chat : Int} {one two three : Line}

lemma Addressed.refl (chat : Int) (line : Line) : Addressed chat line line := ⟨[], by simp⟩

lemma Addressed.trans (h : Addressed chat one two) (h' : Addressed chat two three) :
    Addressed chat one three := by
  obtain ⟨first, hfirst, hchat⟩ := h
  obtain ⟨second, hsecond, hchat'⟩ := h'
  exact ⟨first ++ second, by rw [hsecond, hfirst, List.append_assoc],
    List.forall_mem_append.2 ⟨hchat, hchat'⟩⟩

lemma addressed_post (line : Line) (request : Request) :
    Addressed request.chat line (line.post request).2 := by
  unfold post
  split
  · refine ⟨[request], ?_, by simp⟩
    split <;> rfl
  · exact .refl _ line

lemma addressed_deliver (line : Line) (request : Request) :
    Addressed request.chat line (line.deliver request).2 := by
  have hfirst := line.addressed_post request
  unfold deliver
  split
  · rename_i seconds after hposted
    rw [hposted] at hfirst
    exact hfirst.trans (after.addressed_post request)
  · exact hfirst

lemma addressed_deliverAll (chat : Int) (texts : List String) (line : Line) :
    Addressed chat line (deliverAll chat texts line).2 := by
  induction texts generalizing line with
  | nil => exact .refl chat line
  | cons text texts ih =>
    have hfirst : Addressed chat line (line.deliver ⟨chat, text, true⟩).2 :=
      line.addressed_deliver ⟨chat, text, true⟩
    unfold deliverAll
    split
    · rename_i after hdelivered
      rw [hdelivered] at hfirst
      exact hfirst.trans (ih after)
    · rename_i refusal after hdelivered
      rw [hdelivered] at hfirst
      exact hfirst

end Line

/-- The requests for a notice are all for the chat of its room. -/
theorem addressed_sendNotice {room : String} {chat : Int} (h : chatOfRoom? room = some chat)
    (line : Line) (text : String) : line.Addressed chat (sendNotice line room text).2 := by
  have hall := Line.addressed_deliverAll chat (Text.pieces text messageLimit) line
  simp only [sendNotice, h]
  split
  · rename_i after hdelivered
    rwa [hdelivered] at hall
  · rename_i refusal after hdelivered
    rwa [hdelivered] at hall

end RoomBot.Telegram
