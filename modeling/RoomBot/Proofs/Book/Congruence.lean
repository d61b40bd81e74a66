import RoomBot.Proofs.Book.Step

/-!
# Relations that no question breaks

Two books meet the same call in the same room, maybe at different times.  Whether they give the same
answer, and are still related in some way afterwards, is decided in five places only: when a name is
claimed, when it is released, and when the store is asked for an edit, for a response or for a list.
A relation that survives these (`Book.Congruence`) survives whatever the bot may be asked in the room
(`Congruence.serve`, `Congruence.handle`), and the two answers are the same.

Two owners look further than the room.  The list of commands shows the names of the other owners,
and the help knows of every name; and two more ask for chance.

Most relations are of one kind: the registry and the counts are the same, and the stores are related
(`Book.Paired`).  There the stores decide alone.
-/

namespace RoomBot

namespace Book

/-- The same answer, and books that are related. -/
def SameAnswer (A : Book → Book → Prop) {α : Type} (one two : α × Book) : Prop :=
  one.1 = two.1 ∧ A one.2 two.2

/-- A relation between books that every use of the names and of the store keeps, as far as the room
is concerned, while both books give the same answers. -/
structure Congruence (room : String) (A : Book → Book → Prop) : Prop where
  claim? : ∀ {one two : Book} (name : String), A one two →
    (one.claim? name = none ∧ two.claim? name = none) ∨
      ∃ a b, one.claim? name = some a ∧ two.claim? name = some b ∧ A a b
  release : ∀ {one two : Book} (name : String), A one two →
    A (one.release name) (two.release name)
  edit : ∀ {one two : Book} (now later : String) (edit : Edit), A one two →
    SameAnswer A (one.call (Store.edit room now edit none))
      (two.call (Store.edit room later edit none))
  lookup : ∀ {one two : Book} (name : String), A one two →
    SameAnswer A (one.call (Store.lookup room name)) (two.call (Store.lookup room name))
  list : ∀ {one two : Book}, A one two →
    SameAnswer A (one.call (Store.list room)) (two.call (Store.list room))

lemma SameAnswer.exists {A : Book → Book → Prop} {α : Type} {one two : α × Book}
    (h : SameAnswer A one two) :
    ∃ answer a b, one = (answer, a) ∧ two = (answer, b) ∧ A a b := by
  obtain ⟨answer, a⟩ := one
  obtain ⟨other, b⟩ := two
  obtain rfl : answer = other := h.1
  exact ⟨answer, a, b, rfl, rfl, h.2⟩

lemma sameAnswer_call {A : Book → Book → Prop} {α : Type}
    {ask demand : Store → Except Failure α × Store} {one two : Book}
    (hone : one.vault.pending = none) (htwo : two.vault.pending = none)
    (hanswer : (ask one.vault.store).1 = (demand two.vault.store).1)
    (hafter : A (one.withStore (ask one.vault.store).2)
      (two.withStore (demand two.vault.store).2)) :
    SameAnswer A (one.call ask) (two.call demand) := by
  simp only [call, Vault.call, hone, htwo]
  exact ⟨hanswer, hafter⟩

/-- Chance is the same at both moments, or the owner of the name does not care. -/
def SameChance (owner : Owner) (moment other : Moment) : Prop :=
  (moment.fate = other.fate ∧ moment.face = other.face) ∨ (owner ≠ .eightBall ∧ owner ≠ .roller)

namespace Congruence

variable {room : String} {A : Book → Book → Prop} {one two : Book} (mark : Char)
  (now later args : String)

/-! ## Commands -/

lemma add (h : Congruence room A) (hbooks : A one two) :
    SameAnswer A (one.add mark now room args) (two.add mark later room args) := by
  simp only [Book.add]
  cases definition? mark args with
  | none => exact ⟨rfl, hbooks⟩
  | some definition =>
    obtain ⟨name, response⟩ := definition
    simp only
    cases Command.checkName name with
    | error failure => exact ⟨rfl, hbooks⟩
    | ok _ =>
      by_cases hmanagement : managementNames.contains name
      · simp only [if_pos hmanagement]
        exact ⟨rfl, hbooks⟩
      · simp only [if_neg hmanagement]
        rcases h.claim? name hbooks with ⟨hone, htwo⟩ | ⟨a, b, hone, htwo, hclaimed⟩
        · simp only [hone, htwo]
          exact ⟨rfl, hbooks⟩
        · obtain ⟨answer, c, d, hc, hd, hafter⟩ :=
            (h.edit now later (.add name response) hclaimed).exists
          simp only [hone, htwo, hc, hd]
          cases answer with
          | ok _ => exact ⟨rfl, hafter⟩
          | error failure => cases failure <;> exact ⟨rfl, h.release name hafter⟩

lemma modify (h : Congruence room A) (hbooks : A one two) :
    SameAnswer A (one.modify mark now room args) (two.modify mark later room args) := by
  simp only [Book.modify]
  cases definition? mark args with
  | none => exact ⟨rfl, hbooks⟩
  | some definition =>
    obtain ⟨name, response⟩ := definition
    obtain ⟨answer, a, b, ha, hb, hafter⟩ :=
      (h.edit now later (.modify name response) hbooks).exists
    simp only [ha, hb]
    cases answer with
    | ok _ => exact ⟨rfl, hafter⟩
    | error failure => cases failure <;> exact ⟨rfl, hafter⟩

lemma remove (h : Congruence room A) (hbooks : A one two) :
    SameAnswer A (one.remove mark now room args) (two.remove mark later room args) := by
  simp only [Book.remove]
  cases removedName? mark args with
  | none => exact ⟨rfl, hbooks⟩
  | some name =>
    obtain ⟨answer, a, b, ha, hb, hafter⟩ := (h.edit now later (.remove name) hbooks).exists
    simp only [ha, hb]
    cases answer with
    | ok _ => exact ⟨rfl, h.release name hafter⟩
    | error failure => cases failure <;> exact ⟨rfl, hafter⟩

lemma run (h : Congruence room A) (hbooks : A one two) (name : String) :
    SameAnswer A (one.run mark room name) (two.run mark room name) := by
  obtain ⟨answer, a, b, ha, hb, hafter⟩ := (h.lookup name hbooks).exists
  simp only [Book.run, ha, hb]
  cases answer with
  | error failure => exact ⟨rfl, hafter⟩
  | ok response => cases response <;> exact ⟨rfl, hafter⟩

/-- The list shows the names of the other owners, so these must be the same. -/
lemma listing (h : Congruence room A) (hbooks : A one two)
    (hnames : ∀ names, one.namesBeside names = two.namesBeside names) :
    SameAnswer A (one.listing mark room) (two.listing mark room) := by
  have hone : ∀ names, (one.call (Store.list room)).2.namesBeside names =
      one.namesBeside names := fun names => rfl
  have htwo : ∀ names, (two.call (Store.list room)).2.namesBeside names =
      two.namesBeside names := fun names => rfl
  obtain ⟨answer, a, b, ha, hb, hafter⟩ := (h.list hbooks).exists
  rw [ha] at hone
  rw [hb] at htwo
  simp only [Book.listing, ha, hb]
  cases answer with
  | error failure => exact ⟨rfl, hafter⟩
  | ok names =>
    simp only [hone, htwo, hnames]
    exact ⟨rfl, hafter⟩

/-! ## Owners -/

lemma customCommand (h : Congruence room A) (hbooks : A one two) (settings : Settings)
    (moment other : Moment) {request : Request} (hroom : request.room = room) :
    SameAnswer A (one.customCommand settings moment request)
      (two.customCommand settings other request) := by
  subst hroom
  simp only [Book.customCommand]
  split
  · exact ⟨rfl, hbooks⟩
  · split
    · exact h.add _ _ _ _ hbooks
    · exact h.modify _ _ _ _ hbooks
    · exact h.remove _ _ _ _ hbooks
    · exact h.run _ hbooks _

/-- Whoever serves the call in the room, the books are related afterwards. The answers are the same
if chance is, and if the help looks into the same registry. -/
theorem serve (h : Congruence room A) (hbooks : A one two)
    (hnames : ∀ names, one.namesBeside names = two.namesBeside names) (settings : Settings)
    (moment other : Moment) (owner : Owner) {request : Request} (hroom : request.room = room) :
    (SameChance owner moment other → (owner = .help → one.registry = two.registry) →
      (one.serve settings moment owner request).1 = (two.serve settings other owner request).1) ∧
    A (one.serve settings moment owner request).2 (two.serve settings other owner request).2 := by
  cases owner with
  | listCommands =>
    subst hroom
    obtain ⟨hanswer, hafter⟩ := h.listing settings.mark hbooks hnames
    exact ⟨fun _ _ => hanswer, hafter⟩
  | help =>
    refine ⟨fun _ hregistry => ?_, hbooks⟩
    simp only [Book.serve, explain, hregistry rfl]
  | ping => exact ⟨fun _ _ => rfl, hbooks⟩
  | eightBall =>
    refine ⟨fun hchance _ => ?_, hbooks⟩
    rcases hchance with ⟨hfate, -⟩ | ⟨hne, -⟩
    · simp only [Book.serve, hfate]
    · contradiction
  | roller =>
    refine ⟨fun hchance _ => ?_, hbooks⟩
    rcases hchance with ⟨-, hface⟩ | ⟨-, hne⟩
    · simp only [Book.serve, rollDice, Moment.dice, hface]
    · contradiction
  | customCommands =>
    obtain ⟨hanswer, hafter⟩ := h.customCommand hbooks settings moment other hroom
    exact ⟨fun _ _ => hanswer, hafter⟩

end Congruence

/-! ## Books with the same names and counts -/

/-- The same registry and the same counts, and stores that can be called and are related. -/
structure Paired (S : Store → Store → Prop) (one two : Book) : Prop where
  registry : one.registry = two.registry
  counts : one.counts = two.counts
  left_pending : one.vault.pending = none
  right_pending : two.vault.pending = none
  stores : S one.vault.store two.vault.store

/-- If related stores answer alike and are related afterwards, so do books with such stores. -/
lemma congruence_paired {room : String} {S : Store → Store → Prop}
    (hedit : ∀ {a b : Store} (now later : String) (edit : Edit), S a b →
      (a.edit room now edit none).1 = (b.edit room later edit none).1 ∧
        S (a.edit room now edit none).2 (b.edit room later edit none).2)
    (hlookup : ∀ {a b : Store} (name : String), S a b →
      (a.lookup room name).1 = (b.lookup room name).1 ∧
        S (a.lookup room name).2 (b.lookup room name).2)
    (hlist : ∀ {a b : Store}, S a b →
      (a.list room).1 = (b.list room).1 ∧ S (a.list room).2 (b.list room).2) :
    Congruence room (Paired S) where
  claim? := by
    intro one two name h
    simp only [Book.claim?, h.registry, h.counts]
    split
    · exact .inr ⟨_, _, rfl, rfl, rfl, rfl, h.left_pending, h.right_pending, h.stores⟩
    · exact .inl ⟨rfl, rfl⟩
  release := by
    intro one two name h
    simp only [Book.release, h.registry, h.counts]
    split
    · exact h
    · split <;> exact ⟨rfl, rfl, h.left_pending, h.right_pending, h.stores⟩
  edit := by
    intro one two now later edit h
    obtain ⟨hanswer, hafter⟩ := hedit now later edit h.stores
    exact sameAnswer_call h.left_pending h.right_pending hanswer
      ⟨h.registry, h.counts, rfl, rfl, hafter⟩
  lookup := by
    intro one two name h
    obtain ⟨hanswer, hafter⟩ := hlookup name h.stores
    exact sameAnswer_call h.left_pending h.right_pending hanswer
      ⟨h.registry, h.counts, rfl, rfl, hafter⟩
  list := by
    intro one two h
    obtain ⟨hanswer, hafter⟩ := hlist h.stores
    exact sameAnswer_call h.left_pending h.right_pending hanswer
      ⟨h.registry, h.counts, rfl, rfl, hafter⟩

end Book

/-! ## Bots -/

/-- Two bots with related books meet the same event in the room, and it runs the same command for
both. Then their books are related afterwards, and they give the same reply if chance and the help
say the same. -/
theorem Book.Congruence.handle {A : Book → Book → Prop} {one two : Bot} {event : Event}
    (h : Congruence event.room A) (hbooks : A one.book two.book)
    (hnames : ∀ names, one.book.namesBeside names = two.book.namesBeside names)
    (hsettings : one.settings = two.settings)
    (hdispatch : one.book.registry.dispatch one.settings.mark event.body =
      two.book.registry.dispatch one.settings.mark event.body) (moment other : Moment) :
    ((∀ found, one.book.registry.dispatch one.settings.mark event.body = some found →
        SameChance found.owner moment other ∧
          (found.owner = .help → one.book.registry = two.book.registry)) →
      (one.handle moment event).1 = (two.handle other event).1) ∧
    A (one.handle moment event).2.book (two.handle other event).2.book := by
  simp only [Bot.handle, ← hsettings, ← hdispatch]
  cases Bot.heeds one.settings event with
  | false => exact ⟨fun _ => rfl, hbooks⟩
  | true =>
    cases one.book.registry.dispatch one.settings.mark event.body with
    | none => exact ⟨fun _ => rfl, hbooks⟩
    | some found =>
      have hroom : Request.room ⟨event.room, event.sender, found.call⟩ = event.room := rfl
      obtain ⟨hanswer, hafter⟩ := h.serve hbooks hnames one.settings moment other found.owner hroom
      simp only
      generalize one.book.serve one.settings moment found.owner _ = first at hanswer hafter ⊢
      generalize two.book.serve one.settings other found.owner _ = second at hanswer hafter ⊢
      obtain ⟨answer, left⟩ := first
      obtain ⟨reply, right⟩ := second
      constructor
      · intro hsame
        obtain ⟨hchance, hregistry⟩ := hsame found rfl
        obtain rfl : answer = reply := hanswer hchance hregistry
        cases answer <;> rfl
      · cases answer <;> cases reply <;> exact hafter

lemma Book.Congruence.handle_paired {S : Store → Store → Prop} {one two : Bot} {event : Event}
    (h : Congruence event.room (Paired S)) (hbooks : Paired S one.book two.book)
    (hsettings : one.settings = two.settings) (moment other : Moment) :
    ((∀ found, one.book.registry.dispatch one.settings.mark event.body = some found →
        SameChance found.owner moment other) →
      (one.handle moment event).1 = (two.handle other event).1) ∧
    Paired S (one.handle moment event).2.book (two.handle other event).2.book := by
  obtain ⟨hreply, hafter⟩ := h.handle hbooks
    (fun names => by simp only [namesBeside, hbooks.registry]) hsettings
    (by rw [hbooks.registry]) moment other
  exact ⟨fun hchance => hreply fun found hfound => ⟨hchance found hfound, fun _ => hbooks.registry⟩,
    hafter⟩

end RoomBot
