/-
  File:      Y210/Gralloc/PostFrames.lean
  Subject:   THE FRAMES OF A RUN: what is posted, what is panned, and when a buffer is given up.

  * `Frames` -- a log with the pan that is out and the frame that waits for one;
  * `State.flying`, `State.owed` -- where the two are in a state of the machine;
  * `rank` -- the steps that are left; only a new call and a wake-up nobody asked for add to them;
  * `posts_panned` -- the frames are panned one at a time, each once, in their order, before the
    buffer is given up and before `fb_close` returns.
-/
import Y210.Gralloc.Post

namespace Y210.Gralloc.Post

open Y210.Lib
open Y210.Gralloc.Mapper (privFlagsFramebuffer)

/-! ## 1. Frames -/

def Event.post : Event → Option ScreenInfo
  | .posted _ info => some info
  | _ => none

def Event.pan : Event → Option ScreenInfo
  | .panned info => some info
  | _ => none

def Event.panReturn : Event → Option ScreenInfo
  | .returned info => some info
  | _ => none

/-- A buffer is given up, or `fb_close` returns. -/
def Event.gives : Event → Bool
  | .unlocked _ | .closed => true
  | _ => false

/-- The infos of the posts, of the pans, and of the pans that returned, in order. -/
def posts (l : List Event) : List ScreenInfo := l.filterMap Event.post

def pans (l : List Event) : List ScreenInfo := l.filterMap Event.pan

def returns (l : List Event) : List ScreenInfo := l.filterMap Event.panReturn

/-- Whenever something is given up, every post before it has been panned and the pan is back. -/
def Settled (l : List Event) : Prop :=
  ∀ before e after, l = before ++ e :: after → e.gives = true → returns before = posts before

/-- The info of a post is the info for its buffer. -/
def Event.InfoOk (line : Buffer → BitVec 32) : Event → Prop
  | .posted b info => info.activate = fbActivateNow ∧ info.yoffset = line b
  | _ => True

/-- **The frames**: the pans that are out, and the posts that wait for one. -/
structure Frames (line : Buffer → BitVec 32) (l : List Event) (flying owed : List ScreenInfo) :
    Prop where
  pans : pans l = returns l ++ flying
  posts : posts l = Post.pans l ++ owed
  settled : Settled l
  infos : ∀ e ∈ l, e.InfoOk line

section Frames

variable {line : Buffer → BitVec 32} {l : List Event} {flying owed : List ScreenInfo} {e : Event}

@[simp] theorem posts_concat : posts (l ++ [e]) = posts l ++ e.post.toList := by
  cases h : e.post <;> simp [posts, h]

@[simp] theorem pans_concat : pans (l ++ [e]) = pans l ++ e.pan.toList := by
  cases h : e.pan <;> simp [pans, h]

@[simp] theorem returns_concat : returns (l ++ [e]) = returns l ++ e.panReturn.toList := by
  cases h : e.panReturn <;> simp [returns, h]

theorem Settled.concat (h : Settled l) (he : e.gives = true → returns l = posts l) :
    Settled (l ++ [e]) := by
  intro before x after heq hx
  rcases List.eq_nil_or_concat after with rfl | ⟨rest, y, rfl⟩
  · obtain ⟨rfl, hxe⟩ := List.append_inj' heq rfl
    cases hxe
    exact he hx
  · have hl : l ++ [e] = (before ++ x :: rest) ++ [y] := by simpa using heq
    obtain ⟨rfl, -⟩ := List.append_inj' hl rfl
    exact h before x rest rfl hx

theorem Frames.start : Frames line [] [] [] where
  pans := rfl
  posts := rfl
  settled := by
    intro before e after h
    cases before <;> cases h
  infos := nofun

theorem Frames.settle (h : Frames line l [] []) : returns l = Post.posts l := by
  rw [h.posts, h.pans, List.append_nil, List.append_nil]

theorem Frames.infoConcat (h : Frames line l flying owed) (he : e.InfoOk line) :
    ∀ x ∈ l ++ [e], x.InfoOk line := by
  intro x hx
  rcases List.mem_append.mp hx with hx | hx
  · exact h.infos x hx
  · obtain rfl := List.mem_singleton.mp hx
    exact he

theorem Frames.lock (h : Frames line l flying owed) (b : Buffer) :
    Frames line (l ++ [.locked b]) flying owed where
  pans := by simpa [Event.pan, Event.panReturn] using h.pans
  posts := by simpa [Event.pan, Event.post] using h.posts
  settled := h.settled.concat nofun
  infos := h.infoConcat trivial

/-- A buffer is given up, or `fb_close` returns, with no frame on its way. -/
theorem Frames.give (h : Frames line l [] []) (he : e.gives = true) :
    Frames line (l ++ [e]) [] [] := by
  have hquiet : e.post = none ∧ e.pan = none ∧ e.panReturn = none ∧ e.InfoOk line := by
    cases e <;> first | exact ⟨rfl, rfl, rfl, trivial⟩ | cases he
  obtain ⟨hpost, hpan, hreturn, hinfo⟩ := hquiet
  exact {
    pans := by simpa [hpan, hreturn] using h.pans
    posts := by simpa [hpan, hpost] using h.posts
    settled := h.settled.concat fun _ => h.settle
    infos := h.infoConcat hinfo }

theorem Frames.post (h : Frames line l flying owed) {b : Buffer} {info : ScreenInfo}
    (hinfo : info.activate = fbActivateNow ∧ info.yoffset = line b) :
    Frames line (l ++ [.posted b info]) flying (owed ++ [info]) where
  pans := by simpa [Event.pan, Event.panReturn] using h.pans
  posts := by simp [Event.pan, Event.post, h.posts]
  settled := h.settled.concat nofun
  infos := h.infoConcat hinfo

theorem Frames.pan {info : ScreenInfo} (h : Frames line l [] (info :: owed)) :
    Frames line (l ++ [.panned info]) [info] owed where
  pans := by simpa [Event.pan, Event.panReturn] using h.pans
  posts := by simpa [Event.pan, Event.post] using h.posts
  settled := h.settled.concat nofun
  infos := h.infoConcat trivial

theorem Frames.panReturn {info : ScreenInfo} (h : Frames line l (info :: flying) owed) :
    Frames line (l ++ [.returned info]) flying owed where
  pans := by simpa [Event.pan, Event.panReturn] using h.pans
  posts := by simpa [Event.pan, Event.post] using h.posts
  settled := h.settled.concat nofun
  infos := h.infoConcat trivial

end Frames

/-! ## 2. The frames of a state -/

/-- The pans that are out. -/
def PosterPc.flying : PosterPc → List ScreenInfo
  | .panning info => [info]
  | _ => []

def ClientPc.flying (info : ScreenInfo) : ClientPc → List ScreenInfo
  | .panning _ => [info]
  | _ => []

def State.flying (s : State) : List ScreenInfo := s.poster.flying ++ s.client.flying s.m.info

/-- The frames that wait for their pan: in the queue, in the hand of the posting thread, or in the
    hand of the client. -/
def PosterPc.owed (q : Queue) : PosterPc → List ScreenInfo
  | .leave info | .call info => [info]
  | .panning _ | .reenter | .clear => []
  | _ => if q.pending then [q.info] else []

def ClientPc.owed (info : ScreenInfo) : ClientPc → List ScreenInfo
  | .queue .enter _ | .queue .set _ | .pan _ => [info]
  | _ => []

def State.owed (s : State) : List ScreenInfo := s.poster.owed s.q ++ s.client.owed s.m.info

section State

variable {s s' : State} {ok : Bool} {line : Buffer → BitVec 32}

/-- With nothing queued the posting thread has no frame. -/
theorem Control.posterIdle (h : Control s) (hidle : s.q.pending = false) :
    s.poster.flying = [] ∧ s.poster.owed s.q = [] := by
  have hrest : s.poster.stage ≠ .works := fun hw => by
    rw [h.works hw] at hidle
    cases hidle
  cases hp : s.poster <;> rw [hp] at hrest <;>
    first
      | exact absurd rfl hrest
      | exact ⟨rfl, by simp [PosterPc.owed, hidle]⟩

theorem clientIdle_of_not_calm (info : ScreenInfo) {pc : ClientPc} (hcalm : pc.calm = false) :
    pc.flying info = [] ∧ pc.owed info = [] := by
  cases pc with
  | queue t b => cases t <;> first | exact ⟨rfl, rfl⟩ | cases hcalm
  | pan b => cases hcalm
  | panning b => cases hcalm
  | _ => exact ⟨rfl, rfl⟩

/-- With a frame queued the client has none. -/
theorem Control.clientIdle (h : Control s) (hbusy : s.q.pending = true) :
    s.client.flying s.m.info = [] ∧ s.client.owed s.m.info = [] := by
  apply clientIdle_of_not_calm
  cases hcalm : s.client.calm with
  | false => rfl
  | true => rw [h.calm hcalm] at hbusy; cases hbusy

/-- **One frame at a time.** -/
theorem Control.one_frame (h : Control s) : s.flying.length + s.owed.length ≤ 1 := by
  unfold State.flying State.owed
  cases hp : s.q.pending with
  | false =>
    obtain ⟨hf, ho⟩ := h.posterIdle hp
    rw [hf, ho]
    cases s.client with
    | queue t b => cases t <;> simp [ClientPc.flying, ClientPc.owed]
    | _ => simp [ClientPc.flying, ClientPc.owed]
  | true =>
    obtain ⟨hf, ho⟩ := h.clientIdle hp
    rw [hf, ho]
    cases s.poster <;> simp [PosterPc.flying, PosterPc.owed, hp]

/-- Where the client is calm and has no frame itself, no frame is on its way. -/
theorem Control.none_left (h : Control s) (hidle : s.q.pending = false)
    (hf : s.client.flying s.m.info = []) (ho : s.client.owed s.m.info = []) :
    s.flying = [] ∧ s.owed = [] := by
  obtain ⟨hpf, hpo⟩ := h.posterIdle hidle
  exact ⟨by rw [State.flying, hpf, hf]; rfl, by rw [State.owed, hpo, ho]; rfl⟩

/-- **The frames of a state.** -/
def FramesOk (line : Buffer → BitVec 32) (s : State) : Prop :=
  s.m.lineOf = line ∧ Frames line s.log s.flying s.owed

theorem FramesOk.same (h : FramesOk line s) (hm : s'.m.lineOf = s.m.lineOf) (hlog : s'.log = s.log)
    (hf : s'.flying = s.flying) (ho : s'.owed = s.owed) : FramesOk line s' :=
  ⟨hm.trans h.1, by rw [hlog, hf, ho]; exact h.2⟩

/-- The client goes on with the frame it has, or without one. -/
theorem FramesOk.clientMove (h : FramesOk line s) (hm : s'.m.lineOf = s.m.lineOf)
    (hlog : s'.log = s.log) (hf : s'.poster.flying = s.poster.flying)
    (ho : s'.poster.owed s'.q = s.poster.owed s.q)
    (hcf : s'.client.flying s'.m.info = s.client.flying s.m.info)
    (hco : s'.client.owed s'.m.info = s.client.owed s.m.info) : FramesOk line s' :=
  h.same hm hlog (by rw [State.flying, State.flying, hf, hcf])
    (by rw [State.owed, State.owed, ho, hco])

/-- Something is given up with no frame on its way. -/
theorem FramesOk.give {e : Event} (h : FramesOk line s) (hleft : s.flying = [] ∧ s.owed = [])
    (hleft' : s'.flying = [] ∧ s'.owed = []) (hm : s'.m.lineOf = s.m.lineOf)
    (hlog : s'.log = s.log ++ [e]) (he : e.gives = true) : FramesOk line s' := by
  obtain ⟨hline, hframes⟩ := h
  rw [hleft.1, hleft.2] at hframes
  exact ⟨hm.trans hline, by rw [hlog, hleft'.1, hleft'.2]; exact hframes.give he⟩

theorem FramesOk.lock {b : Buffer} (h : FramesOk line s) (hm : s'.m.lineOf = s.m.lineOf)
    (hlog : s'.log = s.log ++ [.locked b]) (hf : s'.flying = s.flying) (ho : s'.owed = s.owed) :
    FramesOk line s' :=
  ⟨hm.trans h.1, by rw [hlog, hf, ho]; exact h.2.lock b⟩

theorem FramesOk.pan {info : ScreenInfo} {owed : List ScreenInfo} (h : FramesOk line s)
    (hf : s.flying = []) (ho : s.owed = info :: owed) (hm : s'.m.lineOf = s.m.lineOf)
    (hlog : s'.log = s.log ++ [.panned info]) (hf' : s'.flying = [info]) (ho' : s'.owed = owed) :
    FramesOk line s' := by
  obtain ⟨hline, hframes⟩ := h
  rw [hf, ho] at hframes
  exact ⟨hm.trans hline, by rw [hlog, hf', ho']; exact hframes.pan⟩

theorem FramesOk.panReturn {info : ScreenInfo} {flying : List ScreenInfo} (h : FramesOk line s)
    (hf : s.flying = info :: flying) (hm : s'.m.lineOf = s.m.lineOf)
    (hlog : s'.log = s.log ++ [.returned info]) (hf' : s'.flying = flying)
    (ho' : s'.owed = s.owed) : FramesOk line s' := by
  obtain ⟨hline, hframes⟩ := h
  rw [hf] at hframes
  exact ⟨hm.trans hline, by rw [hlog, hf', ho']; exact hframes.panReturn⟩

theorem owed_release (q : Queue) (pc : PosterPc) : pc.owed q.release = pc.owed q := by
  cases pc <;> rfl

theorem owed_acquire {q q' : Queue} {p : Party} (h : q.acquire p = some q') (pc : PosterPc) :
    pc.owed q' = pc.owed q := by
  unfold Queue.acquire at h
  split at h
  · cases h
    cases pc <;> rfl
  · cases h

theorem FramesOk.wait {w : Waiting} {k : Call} (h : FramesOk line s) (hc : s.client = .wait w k)
    (hs : runWait s w k = some s') : FramesOk line s' := by
  cases w with
  | enter | woken =>
    obtain ⟨q, hq, rfl⟩ := Option.map_eq_some_iff.mp hs
    exact h.clientMove rfl rfl rfl (owed_acquire hq _) (by rw [hc]; rfl) (by rw [hc]; rfl)
  | test =>
    cases hs
    cases s.q.pending with
    | true => exact h.clientMove rfl rfl rfl (owed_release _ _) (by rw [hc]; rfl) (by rw [hc]; rfl)
    | false => exact h.clientMove rfl rfl rfl rfl (by rw [hc]; rfl) (by rw [hc]; rfl)
  | asleep => cases hs
  | leave =>
    cases hs
    cases k <;>
      exact h.clientMove rfl rfl rfl (owed_release _ _) (by rw [hc]; rfl) (by rw [hc]; rfl)

theorem signalled_frames (q : Queue) (pc : PosterPc) :
    pc.signalled.flying = pc.flying ∧ pc.signalled.owed q = pc.owed q := by
  cases pc <;> exact ⟨rfl, rfl⟩

theorem FramesOk.queue {t : Telling} {b : Buffer} (hctl : Control s) (h : FramesOk line s)
    (hc : s.client = .queue t b) (hs : runQueue s t b = some s') : FramesOk line s' := by
  cases t with
  | enter =>
    obtain ⟨q, hq, rfl⟩ := Option.map_eq_some_iff.mp hs
    exact h.clientMove rfl rfl rfl (owed_acquire hq _) (by rw [hc]; rfl) (by rw [hc]; rfl)
  | set =>
    cases hs
    -- the frame goes from the client to the queue
    have hidle : s.q.pending = false := hctl.calm (by rw [hc]; rfl)
    have hrest : s.poster.stage ≠ .works := fun hw => by
      rw [hctl.works hw] at hidle
      cases hidle
    refine h.same rfl rfl (by simp [State.flying, hc, ClientPc.flying]) ?_
    rw [State.owed, State.owed, (hctl.posterIdle hidle).2, hc]
    cases hp : s.poster <;> rw [hp] at hrest <;> first | rfl | exact absurd rfl hrest
  | signal =>
    cases hs
    obtain ⟨hf, ho⟩ := signalled_frames s.q s.poster
    exact h.clientMove rfl rfl hf ho (by rw [hc]; rfl) (by rw [hc]; rfl)
  | leave =>
    cases hs
    exact h.clientMove rfl rfl rfl (owed_release _ _) (by rw [hc]; rfl) (by rw [hc]; rfl)

theorem FramesOk.quitting {t : Telling} (h : FramesOk line s) (hc : s.client = .quit t)
    (hs : runQuit s t = some s') : FramesOk line s' := by
  cases t with
  | enter =>
    obtain ⟨q, hq, rfl⟩ := Option.map_eq_some_iff.mp hs
    exact h.clientMove rfl rfl rfl (owed_acquire hq _) (by rw [hc]; rfl) (by rw [hc]; rfl)
  | set =>
    cases hs
    exact h.clientMove rfl rfl rfl (by cases s.poster <;> rfl) (by rw [hc]; rfl) (by rw [hc]; rfl)
  | signal =>
    cases hs
    obtain ⟨hf, ho⟩ := signalled_frames s.q s.poster
    exact h.clientMove rfl rfl hf ho (by rw [hc]; rfl) (by rw [hc]; rfl)
  | leave =>
    cases hs
    exact h.clientMove rfl rfl rfl (owed_release _ _) (by rw [hc]; rfl) (by rw [hc]; rfl)

theorem FramesOk.copy {c : Copying} {b : Buffer} (hctl : Control s)
    (hctl' : Control (runCopy s c b)) (h : FramesOk line s) (hc : s.client = .copy c b) :
    FramesOk line (runCopy s c b) := by
  have hidle : s.q.pending = false := hctl.calm (by rw [hc]; rfl)
  have hleft := hctl.none_left hidle (by rw [hc]; rfl) (by rw [hc]; rfl)
  cases c with
  | lockFramebuffer | lockBuffer =>
    exact h.lock rfl rfl (by rw [State.flying, State.flying, hc]; rfl)
      (by rw [State.owed, State.owed, hc]; rfl)
  | copy => exact h.clientMove rfl rfl rfl rfl (by rw [hc]; rfl) (by rw [hc]; rfl)
  | unlockBuffer | unlockFramebuffer =>
    exact h.give hleft (hctl'.none_left hidle rfl rfl) rfl rfl rfl

theorem FramesOk.swap {b : Buffer} (hctl : Control s) (hctl' : Control (swap s b))
    (h : FramesOk line s) (hc : s.client = .swap b) : FramesOk line (swap s b) := by
  have hidle : s.q.pending = false := hctl.calm (by rw [hc]; rfl)
  have hleft := hctl.none_left hidle (by rw [hc]; rfl) (by rw [hc]; rfl)
  have hleft' : (Post.swap s b).flying = [] ∧ (Post.swap s b).owed = [] := by
    apply hctl'.none_left hidle <;> unfold Post.swap <;> cases b.isFramebuffer <;> rfl
  cases hcur : s.m.currentBuffer with
  | none =>
    exact h.same rfl (by simp [Post.swap, hcur]) (hleft'.1.trans hleft.1.symm)
      (hleft'.2.trans hleft.2.symm)
  | some c => exact h.give hleft hleft' rfl (by simp [Post.swap, hcur]; rfl) rfl

theorem FramesOk.lockForPost {b : Buffer} (hctl : Control s) (h : FramesOk line s)
    (hc : s.client = .lockForPost b) : FramesOk line (lockForPost s b) := by
  obtain ⟨hline, hframes⟩ := h
  have hidle : s.q.pending = false := hctl.calm (by rw [hc]; rfl)
  obtain ⟨hf, ho⟩ := hctl.posterIdle hidle
  have hflying : (Post.lockForPost s b).flying = s.flying := by
    unfold State.flying Post.lockForPost
    rw [hc]
    cases s.q.enabled <;> rfl
  have howed : (Post.lockForPost s b).owed = s.owed ++ [s.m.infoFor b] := by
    unfold State.owed Post.lockForPost
    rw [hc]
    cases s.q.enabled <;> simp [ClientPc.owed, ho]
  refine ⟨hline, ?_⟩
  rw [hflying, howed]
  have hlog : (Post.lockForPost s b).log =
      (s.log ++ [.locked b]) ++ [.posted b (s.m.infoFor b)] := by simp [Post.lockForPost]
  rw [hlog]
  exact (hframes.lock b).post ⟨rfl, by rw [← hline]; rfl⟩

theorem FramesOk.client (hctl : Control s) (hctl' : Control s') (h : FramesOk line s)
    (hs : runClient s ok = some s') : FramesOk line s' := by
  cases hc : s.client <;> simp only [runClient, hc] at hs
  case idle => cases hs
  case opening =>
    cases hs
    exact h.clientMove rfl rfl rfl (by cases s.poster <;> rfl) (by rw [hc]; rfl) (by rw [hc]; rfl)
  case wait w k => exact h.wait hc hs
  case queue t b => exact h.queue hctl hc hs
  case quit t => exact h.quitting hc hs
  case join =>
    have hidle : s.q.pending = false := hctl.calm (by rw [hc]; rfl)
    obtain ⟨hf, ho⟩ := hctl.posterIdle hidle
    split at hs
    · cases hs
      exact h.clientMove rfl rfl (by rw [hf]; rfl) (by rw [ho]; simp [PosterPc.owed, hidle])
        (by rw [hc]; rfl) (by rw [hc]; rfl)
    · cases hs
  case disable =>
    cases hs
    exact h.clientMove rfl rfl rfl (by cases s.poster <;> rfl) (by rw [hc]; rfl) (by rw [hc]; rfl)
  case setCurrent b =>
    cases hs
    exact h.clientMove rfl rfl rfl rfl (by rw [hc]; rfl) (by rw [hc]; rfl)
  all_goals
    have hidle : s.q.pending = false := hctl.calm (by rw [hc]; rfl)
    obtain ⟨hf, ho⟩ := hctl.posterIdle hidle
    cases hs
  case copy c b => exact h.copy hctl hctl' hc
  case swap b => exact h.swap hctl hctl' hc
  case lockForPost b => exact h.lockForPost hctl hc
  case failed b =>
    have hleft := hctl.none_left hidle (by rw [hc]; rfl) (by rw [hc]; rfl)
    exact h.give hleft (hctl'.none_left hidle rfl rfl) rfl rfl rfl
  case free =>
    have hleft := hctl.none_left hidle (by rw [hc]; rfl) (by rw [hc]; rfl)
    exact h.give hleft (hctl'.none_left hidle rfl rfl) rfl rfl rfl
  case pan b =>
    exact h.pan (by rw [State.flying, hf, hc]; rfl) (by rw [State.owed, ho, hc]; rfl) rfl rfl
      (congrArg (· ++ [s.m.info]) hf) (congrArg (· ++ []) ho)
  case panning b =>
    have hrest : ∀ pc, pc = .setCurrent b ∨ pc = .failed b →
        FramesOk line ((s.say [.returned s.m.info]).at pc) := by
      intro pc hpc
      refine h.panReturn (by rw [State.flying, hf, hc]; rfl) rfl rfl ?_ ?_
      · rcases hpc with rfl | rfl <;> exact congrArg (· ++ []) hf
      · rw [State.owed, State.owed, hc]
        rcases hpc with rfl | rfl <;> rfl
    cases ok with
    | true => exact hrest _ (.inl rfl)
    | false => exact hrest _ (.inr rfl)

theorem FramesOk.poster (hctl : Control s) (h : FramesOk line s)
    (hs : runPoster s = some s') : FramesOk line s' := by
  cases hp : s.poster <;> simp only [runPoster, hp] at hs
  case none | asleep | done => cases hs
  case enter | woken | reenter =>
    obtain ⟨q, hq, rfl⟩ := Option.map_eq_some_iff.mp hs
    exact h.clientMove rfl rfl (by rw [hp]; rfl) (by rw [hp]; exact owed_acquire hq _) rfl rfl
  case test =>
    cases hs
    split
    · exact h.clientMove rfl rfl (by rw [hp]; rfl) (by rw [hp]; rfl) rfl rfl
    · rename_i hbusy
      split
      · exact h.clientMove rfl rfl (by rw [hp]; rfl) (by rw [hp]; rfl) rfl rfl
      · have hpending : s.q.pending = true := by simp_all
        refine h.clientMove rfl rfl (by rw [hp]; rfl) ?_ rfl rfl
        rw [hp]
        simp [State.posterAt, PosterPc.owed, hpending]
  case broadcast =>
    cases hs
    refine h.clientMove rfl rfl (by rw [hp]; rfl) (by rw [hp]; rfl) ?_ ?_
    · cases s.client with
      | wait w k => cases w <;> rfl
      | _ => rfl
    · cases s.client with
      | wait w k => cases w <;> rfl
      | _ => rfl
  case exit =>
    cases hs
    exact h.clientMove rfl rfl (by rw [hp]; rfl) (by rw [hp]; rfl) rfl rfl
  -- the thread has a frame in hand, so the client has none
  all_goals
    have hpending : s.q.pending = true := hctl.works (by rw [hp]; rfl)
    obtain ⟨hf, ho⟩ := hctl.clientIdle hpending
    cases hs
  case leave info => exact h.clientMove rfl rfl (by rw [hp]; rfl) (by rw [hp]; rfl) rfl rfl
  case clear => exact h.clientMove rfl rfl (by rw [hp]; rfl) (by rw [hp]; rfl) rfl rfl
  case call info =>
    exact h.pan (by rw [State.flying, hf, hp]; rfl) (by rw [State.owed, ho, hp]; rfl) rfl rfl
      (congrArg ([info] ++ ·) hf) (congrArg ([] ++ ·) ho)
  case panning info =>
    exact h.panReturn (by rw [State.flying, hf, hp]; rfl) rfl rfl (congrArg ([] ++ ·) hf)
      (by rw [State.owed, State.owed, hp]; rfl)

theorem FramesOk.openDevice {asyncPost created : Bool} (hctl : Control s)
    (hctl' : Control (openDevice s asyncPost created)) (h : FramesOk line s)
    (hc : s.client = .idle) : FramesOk line (openDevice s asyncPost created) := by
  unfold Post.openDevice at hctl' ⊢
  dsimp only at hctl' ⊢
  split at hctl'
  · rename_i hnew
    rw [if_pos hnew]
    have hleft := hctl.none_left (hctl.idle_of_off hnew.2.2) (by rw [hc]; rfl) (by rw [hc]; rfl)
    cases created with
    | true =>
      have hleft' := hctl'.none_left rfl rfl rfl
      exact h.same rfl rfl (hleft'.1.trans hleft.1.symm) (hleft'.2.trans hleft.2.symm)
    | false =>
      have hleft' := hctl'.none_left rfl (by rw [if_neg nofun, hc]; rfl)
        (by rw [if_neg nofun, hc]; rfl)
      exact h.same rfl rfl (hleft'.1.trans hleft.1.symm) (hleft'.2.trans hleft.2.symm)
  · rename_i hold
    rw [if_neg hold]
    exact h.same rfl rfl rfl rfl

theorem FramesOk.step {a : Act} (hctl : Control s) (h : FramesOk line s)
    (hs : step s a = some s') : FramesOk line s' := by
  have hctl' : Control s' := hctl.step hs
  cases a with
  | client ok => exact h.client hctl hctl' hs
  | poster => exact h.poster hctl hs
  | «open» asyncPost created =>
    obtain ⟨hc, hs⟩ := Option.ite_none_right_eq_some.mp hs
    cases hs
    exact h.openDevice hctl hctl' hc
  | setUpdateRect l t w x =>
    obtain ⟨⟨hc, -⟩, hs⟩ := Option.ite_none_right_eq_some.mp hs
    cases hs
    refine h.clientMove ?_ rfl rfl rfl (by rw [hc]; rfl) (by rw [hc]; rfl)
    unfold setUpdateRect
    split <;> rfl
  | post b =>
    obtain ⟨⟨hc, -⟩, hs⟩ := Option.ite_none_right_eq_some.mp hs
    cases hs
    cases b.valid with
    | false => exact h
    | true =>
      refine h.clientMove rfl rfl rfl rfl ?_ ?_ <;> rw [hc] <;> unfold enter <;>
        cases s.q.enabled <;> rfl
  | close =>
    obtain ⟨⟨hc, -⟩, hs⟩ := Option.ite_none_right_eq_some.mp hs
    cases hs
    refine h.clientMove rfl rfl rfl rfl ?_ ?_ <;> rw [hc] <;> unfold enter <;>
      cases s.q.enabled <;> rfl
  | wakeClient =>
    simp only [Post.step] at hs
    split at hs
    · rename_i k hc
      cases hs
      exact h.clientMove rfl rfl rfl rfl (by rw [hc]; rfl) (by rw [hc]; rfl)
    · cases hs
  | wakePoster =>
    obtain ⟨hp, hs⟩ := Option.ite_none_right_eq_some.mp hs
    cases hs
    exact h.clientMove rfl rfl (by rw [hp]; rfl) (by rw [hp]; rfl) rfl rfl

end State

/-! ## 3. What is left to do -/

/-- The steps the client has left in its call. Where it signals, and where it queues a frame, the
    steps it gives to the posting thread are counted in. -/
def ClientPc.rank : ClientPc → Nat
  | .idle => 0
  | .opening => 1
  | .wait w k =>
    (match k with
      | .post _ => 20
      | .close => 11) +
    (match w with
      | .enter | .woken => 3
      | .test => 2
      | .asleep => 1
      | .leave => 0)
  | .swap _ => 19
  | .lockForPost _ => 18
  | .queue .enter _ => 17
  | .queue .set _ => 16
  | .queue .signal _ => 6
  | .queue .leave _ => 2
  | .pan _ => 3
  | .panning _ => 2
  | .failed _ => 1
  | .setCurrent _ => 1
  | .copy .lockFramebuffer _ => 5
  | .copy .lockBuffer _ => 4
  | .copy .copy _ => 3
  | .copy .unlockBuffer _ => 2
  | .copy .unlockFramebuffer _ => 1
  | .quit .enter => 10
  | .quit .set => 9
  | .quit .signal => 8
  | .quit .leave => 4
  | .join => 3
  | .disable => 2
  | .free => 1

/-- The steps the posting thread has left until it sleeps or ends. -/
def PosterPc.rank (pending : Bool) : PosterPc → Nat
  | .none | .done => 0
  | .exit => 1
  | .leave _ => 10
  | .call _ => 9
  | .panning _ => 8
  | .reenter => 7
  | .clear => 6
  -- a queued frame is still to be taken
  | .asleep => if pending then 9 else 0
  | .test => 2 + if pending then 9 else 0
  | .enter | .woken => 3 + if pending then 9 else 0
  | .broadcast => 5 + if pending then 9 else 0

def State.rank (s : State) : Nat := s.client.rank + s.poster.rank s.q.pending

/-- The steps in which a thread goes on by itself. -/
def Act.own : Act → Bool
  | .client _ | .poster => true
  | _ => false

def Act.wakes : Act → Bool
  | .wakeClient | .wakePoster => true
  | _ => false

section Rank

variable {s s' : State} {ok : Bool}

theorem acquire_pending {q q' : Queue} {p : Party} (h : q.acquire p = some q') :
    q'.pending = q.pending := by
  unfold Queue.acquire at h
  split at h
  · cases h
    rfl
  · cases h

theorem signalled_rank (pending : Bool) (pc : PosterPc) :
    pc.signalled.rank pending ≤ pc.rank pending + 3 := by
  cases pc with
  | asleep =>
    simp only [PosterPc.signalled, PosterPc.rank]
    omega
  | _ => exact Nat.le_add_right _ _

theorem clientSignalled_rank (pc : ClientPc) : pc.signalled.rank ≤ pc.rank + 2 := by
  cases pc with
  | wait w k => cases w <;> simp [ClientPc.signalled, ClientPc.rank]
  | _ => simp [ClientPc.signalled]

theorem rank_wait {w : Waiting} {k : Call} (hc : s.client = .wait w k)
    (hs : runWait s w k = some s') : s'.rank < s.rank := by
  unfold State.rank
  rw [hc]
  cases w with
  | enter | woken =>
    obtain ⟨q, hq, rfl⟩ := Option.map_eq_some_iff.mp hs
    simp [ClientPc.rank, acquire_pending hq]
  | test =>
    cases hs
    cases hp : s.q.pending <;> simp [ClientPc.rank, State.at, Queue.release, hp]
  | asleep => cases hs
  | leave =>
    cases hs
    cases k <;> simp [ClientPc.rank, Call.after, Queue.release]

theorem rank_queue {t : Telling} {b : Buffer} (hctl : Control s) (hc : s.client = .queue t b)
    (hs : runQueue s t b = some s') : s'.rank < s.rank := by
  unfold State.rank
  rw [hc]
  cases t with
  | enter =>
    obtain ⟨q, hq, rfl⟩ := Option.map_eq_some_iff.mp hs
    simp [ClientPc.rank, acquire_pending hq]
  | set =>
    cases hs
    have hidle : s.q.pending = false := hctl.calm (by rw [hc]; rfl)
    rw [hidle]
    cases s.poster <;> simp [ClientPc.rank, PosterPc.rank]
  | signal =>
    cases hs
    have := signalled_rank s.q.pending s.poster
    simp only [ClientPc.rank]
    omega
  | leave =>
    cases hs
    simp [ClientPc.rank, Queue.release]

theorem rank_quit {t : Telling} (hc : s.client = .quit t)
    (hs : runQuit s t = some s') : s'.rank < s.rank := by
  unfold State.rank
  rw [hc]
  cases t with
  | enter =>
    obtain ⟨q, hq, rfl⟩ := Option.map_eq_some_iff.mp hs
    simp [ClientPc.rank, acquire_pending hq]
  | set =>
    cases hs
    simp [ClientPc.rank]
  | signal =>
    cases hs
    have := signalled_rank s.q.pending s.poster
    simp only [ClientPc.rank]
    omega
  | leave =>
    cases hs
    simp [ClientPc.rank, Queue.release]

theorem rank_client (hctl : Control s) (hs : runClient s ok = some s') : s'.rank < s.rank := by
  cases hc : s.client <;> simp only [runClient, hc] at hs
  case idle => cases hs
  case wait w k => exact rank_wait hc hs
  case queue t b => exact rank_queue hctl hc hs
  case quit t => exact rank_quit hc hs
  case join =>
    split at hs
    · rename_i hdone
      cases hs
      simp [State.rank, hc, hdone, ClientPc.rank, PosterPc.rank]
    · cases hs
  case copy c b =>
    cases hs
    cases c <;> simp [State.rank, hc, runCopy, State.say, State.at, ClientPc.rank]
  all_goals
    cases hs
    unfold State.rank
    rw [hc]
  case swap b => cases hb : b.isFramebuffer <;> simp [swap, hb, ClientPc.rank]
  case lockForPost b => cases hon : s.q.enabled <;> simp [lockForPost, hon, ClientPc.rank]
  case panning b => cases ok <;> simp [State.say, State.at, ClientPc.rank]
  all_goals simp [State.say, State.at, ClientPc.rank]

theorem rank_poster (hs : runPoster s = some s') : s'.rank < s.rank := by
  cases hp : s.poster <;> simp only [runPoster, hp] at hs
  case none | asleep | done => cases hs
  case enter | woken | reenter =>
    obtain ⟨q, hq, rfl⟩ := Option.map_eq_some_iff.mp hs
    simp [State.rank, hp, acquire_pending hq, PosterPc.rank]
  case test =>
    cases hs
    unfold State.rank
    rw [hp]
    split
    · rename_i hidle
      simp [PosterPc.rank, Queue.release, hidle.1]
    · rename_i hbusy
      split
      · simp only [PosterPc.rank, State.posterAt]
        omega
      · have hpending : s.q.pending = true := by simp_all
        simp [PosterPc.rank, State.posterAt, hpending]
  case broadcast =>
    cases hs
    have := clientSignalled_rank s.client
    simp only [State.rank, hp, PosterPc.rank]
    omega
  all_goals
    cases hs
    simp [State.rank, hp, PosterPc.rank, State.say, State.posterAt]

/-- A wake-up nobody asked for costs at most three steps. -/
theorem rank_wake {a : Act} (ha : a.wakes = true) (hs : step s a = some s') :
    s'.rank ≤ s.rank + 3 := by
  cases a with
  | wakeClient =>
    simp only [step] at hs
    split at hs
    · rename_i k hc
      cases hs
      simp only [State.rank, State.at, hc, ClientPc.rank]
      omega
    · cases hs
  | wakePoster =>
    obtain ⟨hp, hs⟩ := Option.ite_none_right_eq_some.mp hs
    cases hs
    cases hpending : s.q.pending <;>
      simp [State.rank, State.posterAt, hp, PosterPc.rank, hpending]
  | _ => cases ha

theorem rank_own {a : Act} (hctl : Control s) (ha : a.own = true) (hs : step s a = some s') :
    s'.rank < s.rank := by
  cases a with
  | client ok => exact rank_client hctl hs
  | poster => exact rank_poster hs
  | _ => cases ha

/-- **Between calls a run is short**: every step but a wake-up takes the rank down. -/
theorem run_rank (as : List Act) {s s' : State} (hctl : Control s)
    (h : runIf step (fun _ a => a.own || a.wakes) s as = some s') :
    as.length + s'.rank ≤ s.rank + 4 * as.countP Act.wakes := by
  induction as generalizing s with
  | nil =>
    cases h
    simp
  | cons a as ih =>
    unfold runIf at h
    split at h
    · rename_i ha
      obtain ⟨s1, hs, hrest⟩ := Option.bind_eq_some_iff.mp h
      have hind := ih (hctl.step hs) hrest
      rw [List.countP_cons, List.length_cons]
      cases hw : a.wakes with
      | true =>
        have hup := rank_wake hw hs
        rw [if_pos rfl]
        omega
      | false =>
        rw [hw, Bool.or_false] at ha
        have hdown := rank_own hctl ha hs
        rw [if_neg Bool.false_ne_true]
        omega
    · cases h

/-- A thread inside the lock can go on. -/
theorem poster_goes_on (h : s.poster.holds = true) : runPoster s ≠ none := by
  cases hp : s.poster <;> simp [hp, PosterPc.holds, runPoster] at h ⊢

theorem client_goes_on (h : s.client.holds = true) : runClient s ok ≠ none := by
  cases hc : s.client <;> rw [hc] at h
  case wait w k => cases w <;> simp [hc, ClientPc.holds, runClient, runWait] at h ⊢
  case queue t b => cases t <;> simp [hc, ClientPc.holds, runClient, runQueue] at h ⊢
  case quit t => cases t <;> simp [hc, ClientPc.holds, runClient, runQuit] at h ⊢
  all_goals cases h

/-- Where neither thread can go on, the lock is free. -/
theorem Control.lock_free (h : Control s) (hclient : runClient s ok = none)
    (hposter : runPoster s = none) : s.q.lock = none := by
  cases hl : s.q.lock with
  | none => rfl
  | some p =>
    cases p with
    | client => exact absurd hclient (client_goes_on (h.clientLock.mp hl))
    | poster => exact absurd hposter (poster_goes_on (h.posterLock.mp hl))

theorem poster_rests (hfree : s.q.lock = none) (hposter : runPoster s = none) :
    s.poster = .none ∨ s.poster = .asleep ∨ s.poster = .done := by
  cases hp : s.poster <;> simp [runPoster, hp, Queue.acquire, hfree] at hposter ⊢

theorem client_rests (hfree : s.q.lock = none) (hclient : runClient s ok = none) :
    s.client = .idle ∨ (∃ k, s.client = .wait .asleep k) ∨
      (s.client = .join ∧ s.poster ≠ .done) := by
  cases hc : s.client <;> simp only [runClient, hc] at hclient
  case idle => exact .inl rfl
  case wait w k =>
    cases w <;> simp [runWait, Queue.acquire, hfree] at hclient
    exact .inr (.inl ⟨k, rfl⟩)
  case queue t b => cases t <;> simp [runQueue, Queue.acquire, hfree] at hclient
  case quit t => cases t <;> simp [runQuit, Queue.acquire, hfree] at hclient
  case join => exact .inr (.inr ⟨rfl, by simpa using hclient⟩)
  all_goals cases hclient

/-- A posting thread at rest leaves no frame behind. -/
theorem Control.rested (h : Control s)
    (hp : s.poster = .none ∨ s.poster = .asleep ∨ s.poster = .done)
    (hplain : s.client.stage = .plain) : s.q.pending = false := by
  cases hpending : s.q.pending with
  | false => rfl
  | true =>
    have hon : s.q.enabled = true := h.enabled hpending
    have hquit : s.q.quit = false := h.quit.trans (by rw [hplain]; rfl)
    rcases hp with hp | hp | hp
    · have hgone := h.thread.mp (by rw [hp]; rfl)
      simp [hon, hplain] at hgone
    · have hsleeps := h.posterSleeps (by rw [hp]; rfl)
      simp [hpending, hplain, ClientStage.signals] at hsleeps
    · have hends := h.ends (by rw [hp]; rfl)
      rw [hquit] at hends
      cases hends

/-- **Nothing gets stuck**: where neither thread can go on, the client is in no call and no frame
    is queued. -/
theorem Control.stuck (h : Control s) (hclient : runClient s ok = none)
    (hposter : runPoster s = none) : s.client = .idle ∧ s.q.pending = false := by
  have hfree := h.lock_free hclient hposter
  have hp := poster_rests hfree hposter
  rcases client_rests hfree hclient with hc | ⟨k, hc⟩ | ⟨hc, hdone⟩
  · exact ⟨hc, h.rested hp (by rw [hc]; rfl)⟩
  · have hidle := h.rested hp (by rw [hc]; rfl)
    have hasleep := h.clientSleeps (by rw [hc]; rfl)
    rcases hp with hp | hp | hp <;> simp [hidle, hp, PosterPc.stage] at hasleep
  · have hon : s.q.enabled = true := h.mode true (by rw [hc]; rfl)
    have hquit : s.q.quit = true := h.quit.trans (by rw [hc]; rfl)
    rcases hp with hp | hp | hp
    · have hgone := h.thread.mp (by rw [hp]; rfl)
      simp [hon, hc, ClientPc.stage] at hgone
    · have hsleeps := h.posterSleeps (by rw [hp]; rfl)
      simp [hquit, hc, ClientPc.stage, ClientStage.signals] at hsleeps
    · exact absurd hp hdone

end Rank

/-! ## 4. The runs -/

section Runs

variable {m : Module} {info : ScreenInfo} {s : State}

theorem control_run (h : Reach step Always (start m info) s) : Control s :=
  h.inv (I := Control) (Control.start m info) fun _ _ _ hi _ hs => hi.step hs

theorem frames_run (h : Reach step Always (start m info) s) : FramesOk m.lineOf s :=
  h.invOn (I := FramesOk m.lineOf) (J := Control) (fun _ => control_run) ⟨rfl, Frames.start⟩
    fun _ _ _ hctl hi _ hs => hi.step hctl hs

/-- **The frames are panned one at a time, each once, in their order.** In every run: at most one
    pan is out; the pans are the posts in their order, each with the info of its post, and only the
    last post can be without one; when a buffer is unlocked, and when `fb_close` returns, every
    frame posted before has been panned and the pan has returned. And the posts are panned: between
    calls the threads can take only so many steps, and when neither can go on the client is in no
    call and every frame has been panned. -/
theorem posts_panned (m : Module) (info : ScreenInfo) {s : State}
    (h : Reach step Always (start m info) s) :
    (returns s.log <+: pans s.log ∧ (pans s.log).length ≤ (returns s.log).length + 1) ∧
    (pans s.log <+: posts s.log ∧ (posts s.log).length ≤ (returns s.log).length + 1) ∧
    (∀ b i, .posted b i ∈ s.log → i.activate = fbActivateNow ∧ i.yoffset = m.lineOf b) ∧
    (∀ before b after, s.log = before ++ .unlocked b :: after → returns before = posts before) ∧
    (∀ before after, s.log = before ++ .closed :: after → returns before = posts before) ∧
    ∀ as s', runIf step (fun _ a => a.own || a.wakes) s as = some s' →
      as.length ≤ s.rank + 4 * as.countP Act.wakes ∧
      ((∀ a, a.own = true → step s' a = none) →
        s'.client = .idle ∧ returns s'.log = posts s'.log) := by
  have hctl := control_run h
  obtain ⟨-, hframes⟩ := frames_run h
  have hone := hctl.one_frame
  refine ⟨⟨⟨_, hframes.pans.symm⟩, ?_⟩, ⟨⟨_, hframes.posts.symm⟩, ?_⟩, ?_, ?_, ?_, ?_⟩
  · rw [hframes.pans, List.length_append]
    omega
  · rw [hframes.posts, hframes.pans, List.length_append, List.length_append]
    omega
  · exact fun b i hmem => hframes.infos _ hmem
  · exact fun before b after heq => hframes.settled before _ after heq rfl
  · exact fun before after heq => hframes.settled before _ after heq rfl
  · intro as s' hrun
    have hrank := run_rank as hctl hrun
    refine ⟨by omega, fun hstuck => ?_⟩
    have h' := h.trans (reach_of_runIf as hrun).always
    have hctl' := control_run h'
    obtain ⟨hc, hidle⟩ := hctl'.stuck (hstuck (.client true) rfl) (hstuck .poster rfl)
    obtain ⟨hf, ho⟩ := hctl'.none_left hidle (by rw [hc]; rfl) (by rw [hc]; rfl)
    obtain ⟨-, hframes'⟩ := frames_run h'
    rw [hf, ho] at hframes'
    exact ⟨hc, hframes'.settle⟩

/-- Two buffers of a panel with 480 bytes a line and 480 lines. -/
def twoBuffers : Module where
  info := { xres := 320, yres := 480, activate := 0, yoffset := 0, reserved0 := 0, reserved1 := 0,
            reserved2 := 0 }
  lineLength := 480
  framebuffer := { handle := 0, valid := true, flags := 0, base := 0 }
  numBuffers := 2
  currentBuffer := none

def firstBuffer : Buffer := { handle := 1, valid := true, flags := privFlagsFramebuffer, base := 0 }

def secondBuffer : Buffer :=
  { handle := 2, valid := true, flags := privFlagsFramebuffer, base := 230400 }

/-- Both are posted, the client asleep in the second call until the pan of the first is back. -/
def twoPosts : List Act :=
  List.flatten [[.open true true, .client true, .poster, .poster, .post firstBuffer],
    List.replicate 10 (.client true), [.poster, .poster, .poster, .poster, .post secondBuffer],
    List.replicate 2 (.client true), [.wakeClient], List.replicate 2 (.client true),
    List.replicate 5 .poster, List.replicate 9 (.client true)]

theorem posts_panned_twice :
    ∃ s, Reach step Always (start twoBuffers twoBuffers.info) s ∧ (posts s.log).length = 2 ∧
      pans s.log <+: posts s.log ∧ (posts s.log).length ≤ (returns s.log).length + 1 := by
  have htest : runTest step (fun _ _ => true) (start twoBuffers twoBuffers.info) twoPosts
      (fun s => (posts s.log).length == 2) = true := by decide
  obtain ⟨s, hs, hp⟩ := reach_of_runTest htest
  obtain ⟨-, ⟨horder, hlength⟩, -⟩ := posts_panned twoBuffers twoBuffers.info hs.always
  exact ⟨s, hs.always, by simpa using hp, horder, hlength⟩

end Runs

end Y210.Gralloc.Post
