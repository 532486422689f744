import OverTheAir.Proofs.Chronicle

/-!
# Proofs/Upload — the image of a completed session is what its owner sent

The pieces of an image cross two contexts: the handler takes them into the inbox (`intake`), and the
task takes them out, one at a time, and writes, discards or skips them.  Whatever comes in between,
the pieces taken in are the pieces dealt with, the one in hand and the ones in the inbox, in that
order, and the partition holds what the pieces dealt with come to (`Uploading`).
-/

namespace OverTheAir

/-! ## Pieces of an image -/

/-- What pieces come to in an image of `total` bytes: one that is empty or overruns is left out. -/
def assemble (total : Nat) (chunks : List Bytes) : Bytes :=
  chunks.foldl (fun image chunk =>
    if chunk ≠ [] ∧ image.length + chunk.length ≤ total then image ++ chunk else image) []

theorem assemble_concat (total : Nat) (chunks : List Bytes) (chunk : Bytes) :
    assemble total (chunks ++ [chunk]) =
      if chunk ≠ [] ∧ (assemble total chunks).length + chunk.length ≤ total then
        assemble total chunks ++ chunk
      else assemble total chunks := by
  rw [assemble, List.foldl_append]
  rfl

/-- The pieces up to the first that ends the image, with it. -/
def uptoEnd : List (Bytes × Bool) → List Bytes
  | [] => []
  | (chunk, isEnd) :: pieces => chunk :: if isEnd then [] else uptoEnd pieces

/-- No piece but the last ends the image, and the last one does as said. -/
def Ends (done : List (Bytes × Bool)) : Bool → Prop
  | false => ∀ p ∈ done, p.2 = false
  | true => ∃ front chunk, done = front ++ [(chunk, true)] ∧ ∀ p ∈ front, p.2 = false

theorem ends_nil : Ends [] false := by simp [Ends]

theorem Ends.concat {done : List (Bytes × Bool)} (h : Ends done false) (chunk : Bytes)
    (isEnd : Bool) : Ends (done ++ [(chunk, isEnd)]) isEnd := by
  rcases isEnd with _ | _
  · intro p hp
    rcases List.mem_append.mp hp with hp | hp
    · exact h p hp
    · rw [List.mem_singleton.mp hp]
  · exact ⟨done, chunk, rfl, h⟩

/-- What comes after the end makes no difference. -/
theorem uptoEnd_append {done : List (Bytes × Bool)} (h : Ends done true)
    (pieces : List (Bytes × Bool)) : uptoEnd (done ++ pieces) = done.map Prod.fst := by
  obtain ⟨front, chunk, rfl, hfront⟩ := h
  induction front with
  | nil => rfl
  | cons p front ih =>
    obtain ⟨chunk', isEnd⟩ := p
    obtain rfl : isEnd = false := hfront _ List.mem_cons_self
    exact congrArg _ (ih fun p hp => hfront p (List.mem_cons_of_mem _ hp))

/-- The piece of the image in a message. -/
def Message.piece? : Message → Option (Bytes × Bool)
  | .data chunk isEnd => some (chunk, isEnd)
  | .wake => none

/-- The pieces that wait in an inbox. -/
def waiting (inbox : Option (List Message)) : List (Bytes × Bool) :=
  (inbox.getD []).filterMap Message.piece?

namespace Stage

/-- The piece that the task has taken and not dealt with. -/
def inHand : Stage → List (Bytes × Bool)
  | .holding m => m.piece?.toList
  | .measuring chunk isEnd => [(chunk, isEnd)]
  | .vetting chunk isEnd => [(chunk, isEnd)]
  | .writing chunk isEnd => [(chunk, isEnd)]
  | _ => []

/-- Whether the pieces dealt with end the image. -/
def isEnd : Stage → Bool
  | .reporting _ isEnd => isEnd
  | .written _ isEnd => isEnd
  | .counted _ _ isEnd => isEnd
  | .ending => true
  | .closing => true
  | .selecting => true
  | .leaving .completed => true
  | _ => false

/-- What the pieces dealt with have come to when the task stands at a stage. -/
def Dealt (total : Nat) (image : Bytes) (done : List (Bytes × Bool)) : Stage → Prop
  | .launched => done = []
  | .beginning => done = []
  | .aborting _ => True
  | .leaving (.aborted _) => True
  | s => image = assemble total (done.map Prod.fst) ∧ Ends done s.isEnd

/-- After a piece the task has nothing in hand, -/
theorem inHand_next (isEnd : Bool) : (next isEnd).inHand = [] := by
  rcases isEnd with _ | _ <;> rfl

/-- and has dealt with all up to it. -/
theorem Dealt.next {total : Nat} {image : Bytes} {done : List (Bytes × Bool)} {isEnd : Bool}
    (himage : image = assemble total (done.map Prod.fst)) (hends : Ends done isEnd) :
    (next isEnd).Dealt total image done := by
  rcases isEnd with _ | _ <;> exact ⟨himage, hends⟩

end Stage

namespace Device

open Journal

/-! ## What an owner hands over -/

/-- The piece that a client hands over when a move makes `d'` of `d`: the payload of its data frame,
if the inbox takes it. -/
def piece? (d d' : Device) (owner : Client) : Move → Option (Bytes × Bool)
  | .frame c f =>
    match Request.decode f, d.inbox with
    | .ok (.state isEnd chunk), some queue =>
      if c = owner ∧ d'.inbox = some (queue ++ [.data chunk isEnd]) then some (chunk, isEnd)
      else none
    | _, _ => none
  | _ => none

/-- The pieces that a client hands over in the `k`-th session of a run, in order of arrival. -/
def intake (owner : Client) (k : Nat) : Device → List Move → List (Bytes × Bool)
  | _, [] => []
  | d, m :: ms =>
    (if d.sessions = k then (piece? d (d.move m) owner m).toList else []) ++
      intake owner k (d.move m) ms

variable {d d' : Device} {t : SessionTask} {owner : Client}

/-- **The pieces taken in are those dealt with, the one in hand and those in the inbox**, and the
partition holds what the first ones come to. -/
def Uploading (d : Device) (t : SessionTask) (taken : List (Bytes × Bool)) : Prop :=
  ∃ done, taken = done ++ t.stage.inHand ++ waiting d.inbox ∧
    t.stage.Dealt d.session.total.toNat d.flash.image.toList done

/-- A flash call of the task, as the pieces see it. -/
theorem Uploading.called {taken : List (Bytes × Bool)} {call : FlashCall} {r : FlashResult}
    {flash : Flash} (h : d.Uploading t taken) (sound : d.Sound) (live : d.task = some t)
    (calls : t.stage.call? d.session.total = some call)
    (answer : d.flash.call call = (r, flash) ∨ flash = d.flash ∧ ∃ e, r = .error e) :
    ∃ done, taken = done ++ (t.stage.after r).inHand ++ waiting d.inbox ∧
      (t.stage.after r).Dealt d.session.total.toNat flash.image.toList done := by
  obtain ⟨done, htaken, hdealt⟩ := h
  have hst := (sound.standing t live).stands
  rcases hs : t.stage with
    _ | _ | _ | _ | _ | _ | _ | _ | _ | ⟨chunk, isEnd⟩ | _ | _ | _ | _ | _ | reason | _ <;>
    rw [hs] at calls hst hdealt htaken <;>
    simp only [Stage.call?, Option.some.injEq, reduceCtorEq] at calls <;> subst calls
  case beginning =>
    rcases r with e | ⟨⟩
    · exact ⟨done, htaken, trivial⟩
    · have hcall := Flash.call_of_ok answer
      obtain rfl : done = [] := hdealt
      refine ⟨[], htaken, ?_, ends_nil⟩
      rw [(Flash.holds_begin hcall).2]
      rfl
  case writing =>
    rcases r with e | ⟨⟩
    · refine ⟨done ++ [(chunk, isEnd)], ?_, trivial⟩
      simpa [Stage.inHand, Stage.after] using htaken
    · have hcall := Flash.call_of_ok answer
      obtain ⟨htakes, hne, hfit⟩ := hst
      obtain ⟨himage, hends⟩ := hdealt
      refine ⟨done ++ [(chunk, isEnd)], ?_, ?_, hends.concat chunk isEnd⟩
      · simpa [Stage.inHand, Stage.after] using htaken
      · have hlen : (assemble d.session.total.toNat (done.map Prod.fst)).length
            = d.session.received.toNat := by
          rw [← himage, Array.length_toList]
          exact htakes.holds.size
        rw [Flash.image_write hcall, himage, List.map_append, List.map_singleton, assemble_concat,
          if_pos]
        refine ⟨hne, ?_⟩
        rw [hlen]
        exact hfit
  case closing =>
    rcases r with e | ⟨⟩
    · exact ⟨done, htaken, trivial⟩
    · have hcall := Flash.call_of_ok answer
      refine ⟨done, htaken, ?_⟩
      rw [Flash.image_finish hcall]
      exact hdealt
  case selecting =>
    rcases r with e | ⟨⟩
    · exact ⟨done, htaken, trivial⟩
    · have hcall := Flash.call_of_ok answer
      refine ⟨done, htaken, ?_⟩
      rw [Flash.image_select hcall]
      exact hdealt
  case aborting => exact ⟨done, htaken, trivial⟩

/-- A task that only goes on keeps the pieces together. -/
theorem Uploading.moveOn {taken : List (Bytes × Bool)} {d₁ : Device} {t₁ : SessionTask}
    {s s' : Stage} (h : d.Uploading t taken) (hs : t.stage = s) (hinbox : d₁.inbox = d.inbox)
    (htotal : d₁.session.total = d.session.total) (hflash : d₁.flash = d.flash)
    (hhand : s'.inHand = s.inHand)
    (hdealt : ∀ {done}, s.Dealt d.session.total.toNat d.flash.image.toList done →
      s'.Dealt d.session.total.toNat d.flash.image.toList done) :
    ∀ t', (d₁.goto t₁ s').task = some t' → (d₁.goto t₁ s').Uploading t' taken := by
  rintro _ ⟨⟩
  obtain ⟨done, htaken, hdone⟩ := h
  rw [hs] at htaken hdone
  refine ⟨done, ?_, ?_⟩
  · change taken = done ++ s'.inHand ++ waiting d₁.inbox
    rw [hinbox, hhand]
    exact htaken
  · change s'.Dealt d₁.session.total.toNat d₁.flash.image.toList done
    rw [htotal, hflash]
    exact hdealt hdone

/-- So does one that puts down what it has in hand, -/
theorem Uploading.putDown {taken : List (Bytes × Bool)} {t₁ : SessionTask} {s s' : Stage}
    (h : d.Uploading t taken) (hs : t.stage = s) (hhand : s'.inHand = [])
    (hdealt : ∀ {done}, s.Dealt d.session.total.toNat d.flash.image.toList done →
      s'.Dealt d.session.total.toNat d.flash.image.toList (done ++ s.inHand)) :
    ∀ t', (d.goto t₁ s').task = some t' → (d.goto t₁ s').Uploading t' taken := by
  rintro _ ⟨⟩
  obtain ⟨done, htaken, hdone⟩ := h
  rw [hs] at htaken hdone
  refine ⟨done ++ s.inHand, ?_, hdealt hdone⟩
  change taken = _ ++ s'.inHand ++ _
  rw [hhand, List.append_nil, htaken]
  rfl

/-- if the piece adds nothing to the image where it is not written. -/
theorem dealt_leaveOut {s : Stage} {chunk : Bytes} {isEnd : Bool}
    (htakes : d.session.Takes d.flash d.session.received.toNat)
    (hdealt : ∀ {image done}, image = assemble d.session.total.toNat (done.map Prod.fst) →
      Ends done isEnd → s.Dealt d.session.total.toNat image done)
    (hout : ¬(chunk ≠ [] ∧ d.session.received.toNat + chunk.length ≤ d.session.total.toNat))
    {done : List (Bytes × Bool)}
    (hdone : d.flash.image.toList = assemble d.session.total.toNat (done.map Prod.fst) ∧
      Ends done false) :
    s.Dealt d.session.total.toNat d.flash.image.toList (done ++ [(chunk, isEnd)]) := by
  obtain ⟨himage, hends⟩ := hdone
  have hlen : (assemble d.session.total.toNat (done.map Prod.fst)).length
      = d.session.received.toNat := by
    rw [← himage, Array.length_toList]
    exact htakes.holds.size
  refine hdealt ?_ (hends.concat chunk isEnd)
  rw [himage, List.map_append]
  change _ = assemble _ (_ ++ [chunk])
  rw [assemble_concat, if_neg]
  rwa [hlen]

/-- **Every step of the task keeps the pieces together.** -/
theorem Uploading.advanced {taken : List (Bytes × Bool)} (h : d.Uploading t taken)
    (sound : d.Sound) (live : d.task = some t) (hm : Advanced d t d') :
    ∀ t', d'.task = some t' → d'.Uploading t' taken := by
  cases hm with
  | equipped hs => exact h.moveOn hs rfl rfl rfl rfl id
  | unequipped hs => exact h.moveOn hs rfl rfl rfl rfl fun _ => trivial
  | died =>
    intro t' live'
    cases live'
  | called calls answer =>
    rintro _ ⟨⟩
    exact h.called sound live calls answer
  | bailed looks =>
    rcases hs : t.stage with
      _ | _ | _ | _ | _ | _ | m | _ | _ | ⟨chunk, isEnd⟩ | _ | _ | _ | _ | _ | reason | _ <;>
      simp only [hs, Stage.looksForAbort, Bool.false_eq_true] at looks
    case holding => exact h.putDown hs rfl fun _ => trivial
    all_goals exact h.moveOn hs rfl rfl rfl rfl fun _ => trivial
  | greeted hs => exact h.moveOn hs rfl rfl rfl rfl id
  | told _ hs => exact h.moveOn hs rfl rfl rfl (Stage.inHand_next _) fun h => .next h.1 h.2
  | untold hs => exact h.moveOn hs rfl rfl rfl (Stage.inHand_next _) fun h => .next h.1 h.2
  | @took _ m queue hs inbox =>
    rintro _ ⟨⟩
    obtain ⟨done, htaken, hdone⟩ := h
    rw [hs] at htaken hdone
    refine ⟨done, ?_, hdone⟩
    rw [htaken, inbox]
    change done ++ [] ++ (m :: queue).filterMap Message.piece?
      = done ++ m.piece?.toList ++ queue.filterMap Message.piece?
    rcases m with ⟨chunk, isEnd⟩ | _ <;> simp [List.filterMap_cons, Message.piece?]
  | orphaned _ hs => exact h.moveOn hs rfl rfl rfl rfl fun _ => trivial
  | waitedOut hs => exact h.moveOn hs rfl rfl rfl rfl id
  | timedOut hs =>
    obtain ⟨state, hmark⟩ := d.session.markAborted_eq .timeout
    exact h.moveOn hs rfl (by rw [hmark]) rfl rfl fun _ => trivial
  | woke hs => exact h.moveOn hs rfl rfl rfl rfl id
  | skipped hs =>
    exact h.putDown hs (Stage.inHand_next _)
      (dealt_leaveOut (sound.stands live hs) Stage.Dealt.next fun h => h.1 rfl)
  | looked hs => exact h.moveOn hs rfl rfl rfl rfl id
  | overran hs overruns =>
    refine h.putDown hs rfl (dealt_leaveOut (sound.stands live hs).1 And.intro fun h => ?_)
    simp [Session.fits?_eq_some sound.counts, h.2] at overruns
  | unvetted hs => exact h.moveOn hs rfl rfl rfl rfl id
  | fitted hs => exact h.moveOn hs rfl rfl rfl rfl id
  | barred hs => exact h.putDown hs rfl fun _ => trivial
  | admitted hs => exact h.moveOn hs rfl rfl rfl rfl id
  | miscounted =>
    intro t' live'
    cases live'
  | accounted hs _ advances =>
    obtain ⟨received, rfl, -⟩ := sound.advances live hs advances
    exact h.moveOn hs rfl rfl rfl rfl id
  | progressed hs => exact h.moveOn hs rfl rfl rfl rfl id
  | filled hs => exact h.moveOn hs rfl rfl rfl (Stage.inHand_next _) fun h => .next h.1 h.2
  | finalizing hs => exact h.moveOn hs rfl rfl rfl rfl id
  | cutShort hs => exact h.moveOn hs rfl rfl rfl rfl fun _ => trivial
  | left =>
    intro t' live'
    cases live'

/-! ## Moves -/

/-- Nothing is handed over by a move that puts no data into the inbox. -/
theorem piece?_eq_none {m : Move}
    (h : d'.inbox = d.inbox ∨ ∃ queue, d.inbox = some queue ∧ d'.inbox = some (queue ++ [.wake])) :
    piece? d d' owner m = none := by
  rw [piece?.eq_def]
  split
  · split
    · rename_i queue _ hinbox
      refine if_neg fun ⟨_, hdata⟩ => ?_
      rcases h with h | ⟨queue', hqueue, hwake⟩
      · rw [h, hinbox] at hdata
        simpa using Option.some.inj hdata
      · rw [hwake] at hdata
        simpa using (List.append_inj' (Option.some.inj hdata) rfl).2
    · rfl
  · rfl

/-- What the owner of the `k`-th session hands over is where the device has it. -/
structure Tracks (owner : Client) (k : Nat) (d : Device) (taken : List (Bytes × Bool)) : Prop where
  early : d.sessions < k → taken = []
  on : d.sessions = k → d.registry.owner = some owner →
    ∀ t, d.task = some t → d.Uploading t taken

/-- A step of a task that lives on keeps the owner and the session. -/
theorem Advanced.keeps {t' : SessionTask} (hm : Advanced d t d') (live : d'.task = some t') :
    d'.registry = d.registry ∧ d'.sessions = d.sessions := by
  cases hm with
  | left => cases live
  | _ => exact ⟨rfl, rfl⟩

theorem Tracks.moved {k : Nat} {taken : List (Bytes × Bool)} {m : Move} (h : Tracks owner k d taken)
    (sound : d.Sound) (hm : Moved d m d') :
    Tracks owner k d'
      (taken ++ if d.sessions = k then (piece? d d' owner m).toList else []) := by
  refine ⟨fun hlt => ?_, fun hk howner t' ht' => ?_⟩
  · have hlt' := Nat.lt_of_le_of_lt hm.sessions_le hlt
    rw [h.early hlt', if_neg (Nat.ne_of_lt hlt')]
    rfl
  -- a move that hands nothing over
  have still : piece? d d' owner m = none → d.sessions = k → d'.Uploading t' taken →
      d'.Uploading t' (taken ++ if d.sessions = k then (piece? d d' owner m).toList else []) := by
    intro hnone hk h
    rw [hnone, if_pos hk]
    exact (List.append_nil taken).symm ▸ h
  cases hm with
  | handled hm =>
    cases hm with
    | ignored => exact still rfl hk (h.on hk howner t' ht')
    | refused => exact still (piece?_eq_none (.inl rfl)) hk (h.on hk howner t' ht')
    | opened =>
      have hlt : d.sessions < k := hk ▸ Nat.lt_succ_self d.sessions
      rw [h.early hlt, if_neg (Nat.ne_of_lt hlt)]
      obtain rfl := Option.some.inj ht'
      exact ⟨[], rfl, rfl⟩
    | unopened _ _ _ idle => cases (sound.resting idle).noTask.symm.trans ht'
    | @queued c f chunk isEnd queue decodes hbound _ _ inbox _ =>
      obtain rfl : owner = c := Option.some.inj (howner.symm.trans hbound)
      obtain ⟨done, htaken, hdone⟩ := h.on hk howner t' ht'
      refine ⟨done, ?_, hdone⟩
      have hpiece : piece? d { d with
          inbox := some (queue ++ [.data chunk isEnd])
          journal := d.journal ++ [⟨.handler, .queued chunk isEnd⟩] } owner (.frame owner f)
          = some (chunk, isEnd) := by
        simp [piece?, decodes, inbox]
      have hwaiting : waiting (some (queue ++ [.data chunk isEnd]))
          = waiting (some queue) ++ [(chunk, isEnd)] := List.filterMap_append
      rw [hpiece, if_pos hk, htaken, hwaiting, inbox, List.append_assoc]
      rfl
    | recorded _ _ _ _ woken =>
      obtain ⟨done, htaken, hdone⟩ := h.on hk howner t' ht'
      refine still (piece?_eq_none woken) hk ⟨done, ?_, hdone⟩
      rcases woken with rfl | ⟨queue, hqueue, rfl⟩
      · exact htaken
      · have hwaiting : waiting (some (queue ++ [.wake])) = waiting (some queue) := by
          simp [waiting, Message.piece?]
        rw [htaken, hqueue]
        exact congrArg _ hwaiting.symm
    | acted _ _ unbound => cases unbound.symm.trans howner
  | @advanced t _ live hm =>
    obtain ⟨hregistry, hsessions⟩ := hm.keeps ht'
    have hk' : d.sessions = k := hsessions ▸ hk
    exact still rfl hk' ((h.on hk' (hregistry ▸ howner) t live).advanced sound live hm t' ht')
  | performed _ hm =>
    obtain ⟨effect, takes, does⟩ := hm
    exact still rfl hk (h.on hk howner t' ht')
  | stuck => exact still rfl hk (h.on hk howner t' ht')
  | waited _ live hs =>
    obtain ⟨done, htaken, hdone⟩ := h.on hk howner _ live
    obtain rfl := Option.some.inj ht'
    rw [hs] at htaken hdone
    exact still rfl hk ⟨done, htaken, hdone⟩
  | passed => exact still rfl hk (h.on hk howner t' ht')
  | around => exact still (piece?_eq_none (.inl rfl)) hk (h.on hk howner t' ht')

/-- **What an owner hands over in a run is where the device has it.** -/
theorem tracks_run {k : Nat} {taken : List (Bytes × Bool)} (h : Tracks owner k d taken)
    (sound : d.Sound) (ms : List Move) :
    Tracks owner k (d.run ms) (taken ++ intake owner k d ms) := by
  induction ms generalizing d taken with
  | nil => exact (List.append_nil taken).symm ▸ h
  | cons m ms ih =>
    rw [intake, ← List.append_assoc]
    exact ih (h.moved sound (d.moved m)) (sound.moved (d.moved m))

/-- **Commit integrity.**  When a session completes, the partition holds what the pieces come to
that its owner handed over in it, up to the one that ends the image, and all of the announced
size. -/
theorem image_of_select (config : Config) (firmware : Firmware) (ms : List Move) (m : Move)
    (selects : .flash .select (.ok ()) ∈ ((fresh config firmware).run ms).does m) :
    ∃ k owner total, m = .step (.task k) ∧
      opening? k ((fresh config firmware).run ms).journal = some (owner, total) ∧
      (((fresh config firmware).run ms).move m).flash.image.toList
        = assemble total.toNat (uptoEnd (intake owner k (fresh config firmware) ms)) ∧
      (∃ chunk, (chunk, true) ∈ intake owner k (fresh config firmware) ms) ∧
      (((fresh config firmware).run ms).move m).flash.image.size = total.toNat := by
  obtain ⟨sound, chronicle⟩ := chronicle_run config firmware ms
  have tracks : ∀ owner k, Tracks owner k ((fresh config firmware).run ms)
      ([] ++ intake owner k (fresh config firmware) ms) := fun owner k =>
    tracks_run ⟨fun _ => rfl, fun _ _ t ht => by cases ht⟩ (sound_fresh config firmware) ms
  generalize (fresh config firmware).run ms = d at *
  obtain ⟨t, rfl, live, hs, -, hcomplete, hflash, -⟩ := sound.selects (called_of_does selects)
  obtain ⟨owner, howner, hopening⟩ := chronicle.current (sound.ne_idle live)
  obtain ⟨done, htaken, hdealt⟩ := (tracks owner d.sessions).on rfl howner t live
  rw [hs] at htaken hdealt
  obtain ⟨himage, hends⟩ := hdealt
  have htaken' : intake owner d.sessions (fresh config firmware) ms
      = done ++ waiting d.inbox := by
    rw [← List.nil_append (intake ..), htaken]
    exact congrArg (· ++ _) (List.append_nil done)
  rw [hflash]
  refine ⟨d.sessions, owner, d.session.total, rfl, hopening, ?_, ?_, hcomplete.size⟩
  · rw [htaken', uptoEnd_append hends]
    exact himage
  · obtain ⟨front, chunk, rfl, -⟩ := hends
    exact ⟨chunk, htaken' ▸ by simp⟩

theorem image_of_select_brief :
    .flash .select (.ok ()) ∈ ((fresh .default .unknown).run (brief 8)).does (.step (.task 1)) ∧
    ∃ k owner total, Move.step (.task 1) = .step (.task k) ∧
      opening? k ((fresh .default .unknown).run (brief 8)).journal = some (owner, total) ∧
      (((fresh .default .unknown).run (brief 8)).move (.step (.task 1))).flash.image.toList
        = assemble total.toNat (uptoEnd (intake owner k (fresh .default .unknown) (brief 8))) ∧
      (∃ chunk, (chunk, true) ∈ intake owner k (fresh .default .unknown) (brief 8)) ∧
      (((fresh .default .unknown).run (brief 8)).move (.step (.task 1))).flash.image.size
        = total.toNat :=
  ⟨by decide, image_of_select .default .unknown (brief 8) (.step (.task 1)) (by decide)⟩

end Device

end OverTheAir
