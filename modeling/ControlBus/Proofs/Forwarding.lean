-- The way of a notification from an operation of the store to the registry of the subscribers. It
-- goes as the text of an envelope through the database, in company of whatever else is posted
-- there, and comes out with the channel and the payload with which it was issued.
import ControlBus.Proofs.Postings

namespace ControlBus

namespace RelationalStore

variable {α : Type} {s s' : RelationalStore}

/-! ## Requests -/

namespace Request

/-- What a request does at the registry itself. -/
def attends : Request α → Switchboard → Switchboard
  | subscribe channels patterns => fun board => (board.subscribe channels patterns).2
  | _ => id

/-- The texts that a request has posted on the event channel, if it was committed. -/
def posted (q : Request α) (s : RelationalStore) : List String :=
  match q.perform.run s with
  | (.ok _, s') => postedSince s s'
  | (.error _, _) => []

/-- The announcements that a request has issued, if it was committed. -/
def issues (q : Request α) (s : RelationalStore) : List Announcement :=
  match q.perform.run s with
  | (.ok _, s') => s'.issued.drop s.issued.length
  | (.error _, _) => []

/-- A request that succeeds has subscribed or has delivered what it announced. -/
theorem delivers (q : Request α) {a : α} (h : q.perform.run s = (.ok a, s')) :
    ∃ said, Delivered said { s with board := q.attends s.board } s' := by
  have hother : Delivers q.perform → q.attends = id →
      ∃ said, Delivered said { s with board := q.attends s.board } s' := by
    intro hdelivers hattends
    obtain ⟨said, hsaid⟩ := hdelivers s a s' h
    rw [hattends]
    exact ⟨said, hsaid⟩
  cases q with
  | command c => exact hother (.command c) rfl
  | keys pattern => exact hother ((Delivers.sendAlone _).map _) rfl
  | publish channel payload => exact hother (fun _ _ _ hn => ⟨_, delivered_publish hn⟩) rfl
  | subscribe channels patterns =>
    cases h
    exact ⟨[], .none _, rfl, rfl⟩

/-- What a request posts is the texts of what it issues, and every text is one that could be
composed. -/
theorem posted_eq (q : Request α) (s : RelationalStore) :
    q.posted s = (q.issues s).map Announcement.text ∧
      ∀ a ∈ q.issues s, Envelope.encode a.channel a.payload = .ok a.text := by
  unfold posted issues
  split
  · rename_i a s' hrun
    obtain ⟨said, hposts, -, -⟩ := q.delivers hrun
    have hissued : s'.issued = s.issued ++ said := hposts.issued_eq
    rw [hissued, List.drop_left]
    exact ⟨hposts.postedSince_eq, fun a ha => Announcement.encode_of_fits (hposts.fits a ha)⟩
  · exact ⟨rfl, by simp⟩

/-- A request to publish issues its own channel and payload. -/
theorem issues_publish {channel payload : String} {n : Nat}
    (h : (publish channel payload).perform.run s = (.ok n, s')) :
    (publish channel payload).issues s = [⟨channel, payload⟩] := by
  have hissued := (delivered_publish h).posts.issued_eq
  simp only [issues, h, hissued, List.drop_left]

/-- After a request, committed or not, the listener has had what it posted. -/
theorem board_of_run (q : Request α) (s : RelationalStore) :
    (q.perform.run s).2.board =
        (q.posted s).eraseDups.foldl (heard s.listening) (q.attends s.board) ∧
      (q.perform.run s).2.listening = s.listening := by
  rcases hrun : q.perform.run s with ⟨result, s'⟩
  cases result with
  | ok a =>
    obtain ⟨said, hsaid⟩ := q.delivers hrun
    have hposted : q.posted s = said.map Announcement.text := by
      simp only [posted, hrun]
      exact hsaid.posts.postedSince_eq
    rw [hposted]
    exact ⟨hsaid.board, hsaid.listening⟩
  | error e =>
    have hseen := q.allOrNothing.undone s e s' hrun
    have hattends : q.attends = id := by
      cases q with
      | subscribe channels patterns => cases hrun
      | _ => rfl
    simp only [posted, hrun, hattends]
    exact ⟨hseen.board, hseen.listening⟩

end Request

/-! ## The event channel -/

/-- What goes on around the event channel. -/
inductive Traffic where
  /-- An operation of the store, which may fail. -/
  | request {α : Type} (q : Request α)
  /-- A text that somebody else posts there. -/
  | foreign (text : String)
  /-- Subscribers read what has arrived for them, or let go of a subscription. -/
  | attend (f : Switchboard → Switchboard)

/-- What comes to the registry. -/
inductive Arrival where
  | notified (a : Announcement)
  | attended (f : Switchboard → Switchboard)

def Arrival.apply (board : Switchboard) : Arrival → Switchboard
  | notified a => (board.publish a.channel a.payload).2
  | attended f => f board

namespace Traffic

def step (s : RelationalStore) : Traffic → RelationalStore
  | request q => (q.perform.run s).2
  | foreign text => s.route text
  | attend f => { s with board := f s.board }

/-- The registry of a store whose listener receives every committed notification once. -/
def received (s : RelationalStore) (registry : Switchboard) : Traffic → Switchboard
  | request q => (q.posted s).foldl (heard s.listening) (q.attends registry)
  | foreign text => heard s.listening registry text
  | attend f => f registry

/-- What comes to the registry by right: what is issued, as far as it is kept, and what foreign
texts bring. -/
def arrivals (kept : List Announcement → List Announcement) (s : RelationalStore) :
    Traffic → List Arrival
  | request q => .attended q.attends :: (kept (q.issues s)).map .notified
  | foreign text => (Announcement.ofText? text).toList.map .notified
  | attend f => [.attended f]

def stepAll : RelationalStore → List Traffic → RelationalStore
  | s, [] => s
  | s, t :: rest => stepAll (t.step s) rest

def receivedAll : RelationalStore → Switchboard → List Traffic → Switchboard
  | _, registry, [] => registry
  | s, registry, t :: rest => receivedAll (t.step s) (t.received s registry) rest

def arrivalsAll (kept : List Announcement → List Announcement) :
    RelationalStore → List Traffic → List Arrival
  | _, [] => []
  | s, t :: rest => t.arrivals kept s ++ arrivalsAll kept (t.step s) rest

end Traffic

/-- The listener passes on what the text of an announcement brings. -/
theorem heard_eq (board : Switchboard) (text : String) :
    heard true board text =
      ((Announcement.ofText? text).toList.map Arrival.notified).foldl Arrival.apply board := by
  simp only [heard, Announcement.ofText?, if_true]
  cases Envelope.decode text <;> rfl

theorem foldl_heard (said : List Announcement) (board : Switchboard) :
    (said.map Announcement.text).foldl (heard true) board =
      (said.map Arrival.notified).foldl Arrival.apply board := by
  induction said generalizing board with
  | nil => rfl
  | cons a rest ih =>
    simp only [List.map_cons, List.foldl_cons, heard_eq, Announcement.ofText?_text]
    exact ih _

/-- Of equal announcements and of equal texts the same are kept. -/
theorem eraseDups_map_text (said : List Announcement) :
    (said.map Announcement.text).eraseDups = said.eraseDups.map Announcement.text := by
  match said with
  | [] => rfl
  | a :: rest =>
    have hsame : (fun text => !text == a.text) ∘ Announcement.text = fun b => !b == a := by
      funext b
      by_cases hb : b = a
      · simp [hb]
      · have htext : b.text ≠ a.text := fun h => hb (Announcement.text_inj h)
        simp [hb, htext]
    have ih := eraseDups_map_text (rest.filter fun b => !b == a)
    rw [List.map_cons, List.eraseDups_cons, List.eraseDups_cons, List.map_cons, List.filter_map,
      hsame, ih]
  termination_by said.length
  decreasing_by
    have := List.length_filter_le (fun b => !b == a) rest
    simp
    omega

namespace Traffic

theorem listening_step (t : Traffic) (s : RelationalStore) :
    (t.step s).listening = s.listening := by
  cases t with
  | request q => exact (q.board_of_run s).2
  | foreign text =>
    rw [step, route_eq]
  | attend f => rfl

/-- With a listener that receives everything once, one step brings the registry what it should. -/
theorem received_eq (t : Traffic) (hs : s.listening = true) (registry : Switchboard) :
    t.received s registry = (t.arrivals id s).foldl Arrival.apply registry := by
  cases t with
  | request q =>
    simp only [received, arrivals, hs, (q.posted_eq s).1, foldl_heard]
    rfl
  | foreign text =>
    simp only [received, arrivals, hs, heard_eq]
  | attend f => rfl

/-- The listener of the store brings its registry the same, equal notifications of one transaction
once. -/
theorem board_step (t : Traffic) (hs : s.listening = true) :
    (t.step s).board = (t.arrivals List.eraseDups s).foldl Arrival.apply s.board := by
  cases t with
  | request q =>
    have hboard := (q.board_of_run s).1
    rw [hs, (q.posted_eq s).1, eraseDups_map_text, foldl_heard] at hboard
    exact hboard
  | foreign text =>
    simp only [step, route_eq, arrivals, hs, heard_eq]
  | attend f => rfl

theorem receivedAll_eq (traffic : List Traffic) (hs : s.listening = true)
    (registry : Switchboard) :
    receivedAll s registry traffic = (arrivalsAll id s traffic).foldl Arrival.apply registry := by
  induction traffic generalizing s registry with
  | nil => rfl
  | cons t rest ih =>
    simp only [receivedAll, arrivalsAll, List.foldl_append]
    rw [ih ((t.listening_step s).trans hs), t.received_eq hs]

theorem board_stepAll (traffic : List Traffic) (hs : s.listening = true) :
    (stepAll s traffic).board =
      (arrivalsAll List.eraseDups s traffic).foldl Arrival.apply s.board := by
  induction traffic generalizing s with
  | nil => rfl
  | cons t rest ih =>
    simp only [stepAll, arrivalsAll, List.foldl_append]
    rw [ih ((t.listening_step s).trans hs), t.board_step hs]

end Traffic

/-- An envelope is composed exactly if it is short enough, its escapes counted, and it is read back
as the channel and the payload that it was composed of. What an operation issues is posted as the
texts of such envelopes, and it is the channel and payload with which something is published.
Operations and foreign texts in any order bring a registry whose listener receives every committed
notification once just what was issued, in this order, and what foreign texts bring; the database
keeps of equal notifications of one transaction the first. A text that is no envelope changes
nothing. -/
theorem notifications_cross_unchanged :
    (∀ channel payload : String,
      Envelope.encode channel payload =
        (if Envelope.size channel payload ≤ 7999 then .ok (Envelope.text ⟨channel, payload⟩)
        else .error (.payloadTooLarge (Envelope.size channel payload) 7999)) ∧
      (Envelope.text ⟨channel, payload⟩).utf8ByteSize = Envelope.size channel payload ∧
      Envelope.decode (Envelope.text ⟨channel, payload⟩) = some ⟨channel, payload⟩) ∧
    (∀ {α : Type} (q : Request α) (s : RelationalStore),
      q.posted s = (q.issues s).map Announcement.text ∧
      ∀ a ∈ q.issues s, Envelope.encode a.channel a.payload = .ok a.text) ∧
    (∀ (channel payload : String) (s s' : RelationalStore) (n : Nat),
      (Request.publish channel payload).perform.run s = (.ok n, s') →
        (Request.publish channel payload).issues s = [⟨channel, payload⟩]) ∧
    (∀ (s : RelationalStore) (traffic : List Traffic), s.listening = true →
      Traffic.receivedAll s s.board traffic =
        (Traffic.arrivalsAll id s traffic).foldl Arrival.apply s.board ∧
      (Traffic.stepAll s traffic).board =
        (Traffic.arrivalsAll List.eraseDups s traffic).foldl Arrival.apply s.board) ∧
    (∀ (text : String) (s : RelationalStore), Envelope.decode text = none →
      (Traffic.foreign text).step s = s ∧ (Traffic.foreign text).arrivals id s = []) := by
  refine ⟨fun channel payload => ?_, fun q s => q.posted_eq s,
    fun _ _ _ _ _ h => Request.issues_publish h, fun s traffic hs => ?_, fun text s htext => ?_⟩
  · exact ⟨Envelope.encode_eq channel payload, Envelope.utf8ByteSize_text channel payload,
      Envelope.decode_envelope ⟨channel, payload⟩⟩
  · exact ⟨Traffic.receivedAll_eq traffic hs s.board, Traffic.board_stepAll traffic hs⟩
  · constructor
    · simp [Traffic.step, route, htext]
    · simp [Traffic.arrivals, Announcement.ofText?, htext]

/-- A subscriber of a channel gets what is published there, between two texts that are no
envelopes. -/
theorem published_among_foreign_texts :
    let s : RelationalStore :=
      { order := .newestFirst, board := .ofBufferSize 4, maxPayload := 64, announcing := false }
    let traffic : List Traffic :=
      [.request (.subscribe ["ports"] []), .foreign "up", .request (.publish "ports" "up"),
        .foreign "down"]
    (Traffic.stepAll s traffic).board.inbox 1 = [⟨"ports", none, "up"⟩] ∧
      (Traffic.receivedAll s s.board traffic).inbox 1 = [⟨"ports", none, "up"⟩] := by
  intro s traffic
  obtain ⟨-, -, -, hregistry, -⟩ := notifications_cross_unchanged
  obtain ⟨hreceived, hboard⟩ := hregistry s traffic rfl
  constructor
  · rw [hboard]
    decide +kernel
  · rw [hreceived]
    decide +kernel

end RelationalStore

end ControlBus
