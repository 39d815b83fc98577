import TcpReactor.Proofs.Session.Attuned
import Mathlib.Computability.Language

namespace TcpReactor.Session

/-! # The order of callbacks

An application that is told of its sessions one after the other sees brackets: each session may be
connected once, then bytes come and leave, and the close is the last it hears of it. A session that
never gets connected is closed all the same.

* `bracket` is the language of what is told of one session, `lives` are the sessions of a trace.
* `InBrackets` says what the callbacks of a trace look like, and `InBrackets.of_accepts` that it is
  so if the observer `brackets` accepts the trace.

The callbacks are read off the notices of the trace, which are the calls that the handler of each
session gets, in this order (`Driven.heard_trace`).
-/

open Computability

/-! ## What is told of a session -/

inductive Callback
  | connected
  | recv
  | send
  | close
  deriving DecidableEq, Repr

variable {T : Type}

/-- What the application is told by an event. A session is lent to it when it is connected. -/
def Event.callback? : Event T → Option Callback
  | .told .visit _ => some .connected
  | .told .recv _ => some .recv
  | .told (.send _) _ => some .send
  | .told .close _ => some .close
  | _ => none

def callbacks (es : List (Event T)) : List Callback := es.filterMap Event.callback?

/-- The transport was offered bytes. -/
def Event.offers : Event T → Bool
  | .sent _ _ _ _ => true
  | _ => false

/-- Bytes that come and leave. -/
def traffic : Language Callback := ({[.recv]} + {[.send]})∗

/-- All that is told of a session. -/
def bracket : Language Callback := (1 + {[.connected]} * traffic) * {[.close]}

/-- What happens to each of the sessions that are opened in a trace, up to the next open. -/
def lives : List (Event T) → List (List (Event T))
  | [] => []
  | e :: es => if e.opens then es.takeWhile (!·.opens) :: lives es else lives es

/-- The callbacks of a trace come in brackets, one for each session that is opened. -/
structure InBrackets (trace : List (Event T)) : Prop where
  /-- The callbacks are the beginning of a sequence of brackets. -/
  whole : ∃ more, callbacks trace ++ more ∈ bracket∗
  /-- Every callback belongs to a session. -/
  split : callbacks trace = ((lives trace).map callbacks).flatten
  /-- The callbacks of each session are the beginning of a bracket. -/
  each : ∀ life ∈ lives trace, ∃ more, callbacks life ++ more ∈ bracket
  /-- Before the next session is opened the bracket is complete. -/
  complete : ∀ life ∈ (lives trace).dropLast, callbacks life ∈ bracket
  /-- No byte is offered before the application knows that it is connected. -/
  offered : ∀ life ∈ lives trace, ∀ start e rest, life = start ++ e :: rest → e.offers = true →
    .connected ∈ callbacks start

/-! ## The sessions of a trace -/

section Lives

variable {es life : List (Event T)}

theorem callbacks_cons (e : Event T) (es : List (Event T)) :
    callbacks (e :: es) = e.callback?.toList ++ callbacks es := by
  rw [callbacks, List.filterMap_cons]
  cases e.callback? <;> rfl

theorem Event.callback?_of_opens (e : Event T) (h : e.opens = true) : e.callback? = none := by
  cases e with
  | called => rfl
  | _ => cases h

/-- The callbacks of a trace are those before the first open and those of its sessions. -/
theorem callbacks_eq_flatten (es : List (Event T)) : callbacks es =
    callbacks (es.takeWhile (!·.opens)) ++ ((lives es).map callbacks).flatten := by
  induction es with
  | nil => rfl
  | cons e es ih =>
      rw [lives, List.takeWhile_cons]
      cases hopens : e.opens with
      | true =>
          rw [callbacks_cons, e.callback?_of_opens hopens, ih]
          rfl
      | false =>
          rw [if_neg Bool.false_ne_true, Bool.not_false, if_pos rfl, callbacks_cons,
            callbacks_cons e (es.takeWhile _), ih, List.append_assoc]

/-- A session lives from the event that opens it to the next such event, or to the end. -/
theorem eq_append_of_mem_lives (h : life ∈ lives es) :
    ∃ start opening rest, es = start ++ opening :: (life ++ rest) ∧ opening.opens = true ∧
      (∀ e ∈ life, e.opens = false) ∧ ∀ next ∈ rest.head?, next.opens = true := by
  induction es with
  | nil => cases h
  | cons e es ih =>
      have hlater (h : life ∈ lives es) := ih h
      rw [lives] at h
      split at h
      · rename_i hopens
        -- it begins here, and goes on up to the next event that opens
        rcases List.mem_cons.mp h with rfl | h
        · refine ⟨[], e, es.dropWhile (!·.opens), ?_, hopens, fun e he => ?_, fun next hnext => ?_⟩
          · rw [List.takeWhile_append_dropWhile]
            rfl
          · simpa using List.all_eq_true.mp List.all_takeWhile e he
          · have hhead := List.head?_dropWhile_not (fun e : Event T => !e.opens) es
            rw [Option.mem_def.mp hnext] at hhead
            simpa using hhead
        · rcases hlater h with ⟨start, opening, rest, rfl, hlife⟩
          exact ⟨e :: start, opening, rest, rfl, hlife⟩
      · rcases hlater h with ⟨start, opening, rest, rfl, hlife⟩
        exact ⟨e :: start, opening, rest, rfl, hlife⟩

theorem lives_eq_nil (h : ∀ e ∈ es, e.opens = false) : lives es = [] := by
  induction es with
  | nil => rfl
  | cons e es ih =>
      rw [List.forall_mem_cons] at h
      rw [lives, h.1, if_neg Bool.false_ne_true]
      exact ih h.2

/-- Behind all sessions but the last there is another open. -/
theorem eq_append_of_mem_dropLast_lives (h : life ∈ (lives es).dropLast) :
    ∃ start opening next rest, es = start ++ opening :: (life ++ next :: rest) ∧
      opening.opens = true ∧ (∀ e ∈ life, e.opens = false) ∧ next.opens = true := by
  induction es with
  | nil => cases h
  | cons e es ih =>
      have hlater (h : life ∈ (lives es).dropLast) :
          ∃ start opening next rest, e :: es = start ++ opening :: (life ++ next :: rest) ∧
            opening.opens = true ∧ (∀ e ∈ life, e.opens = false) ∧ next.opens = true := by
        rcases ih h with ⟨start, opening, next, rest, rfl, hlife⟩
        exact ⟨e :: start, opening, next, rest, rfl, hlife⟩
      rw [lives] at h
      split at h
      · rename_i hopens
        cases hmore : lives es with
        | nil =>
            rw [hmore] at h
            cases h
        | cons life' more =>
            rw [hmore, List.dropLast_cons_of_ne_nil (List.cons_ne_nil _ _), ← hmore] at h
            rcases List.mem_cons.mp h with rfl | h
            · have hsplit : es.takeWhile (!·.opens) ++ es.dropWhile (!·.opens) = es :=
                List.takeWhile_append_dropWhile
              have hhead := List.head?_dropWhile_not (fun e : Event T => !e.opens) es
              cases hrest : es.dropWhile (!·.opens) with
              | nil =>
                  -- then there is no open, and no other session
                  rw [hrest, List.append_nil] at hsplit
                  rw [lives_eq_nil fun e he => ?_] at hmore
                  · cases hmore
                  · rw [← hsplit] at he
                    simpa using List.all_eq_true.mp List.all_takeWhile e he
              | cons next rest =>
                  rw [hrest] at hsplit hhead
                  refine ⟨[], e, next, rest, ?_, hopens, fun e he => ?_, by simpa using hhead⟩
                  · rw [hsplit]
                    rfl
                  · simpa using List.all_eq_true.mp List.all_takeWhile e he
            · exact hlater h
      · exact hlater h

end Lives

/-! ## Reading brackets -/

/-- How far the session has come: has its application been connected, and where is its cycle? -/
structure Stage where
  connected : Bool
  cycle : Cycle
  deriving DecidableEq, Repr

/-- No session was opened so far. -/
def Stage.start : Stage := ⟨false, .ended⟩

def Stage.next (q : Stage) (e : Event T) : Stage where
  connected := !e.opens && (q.connected || e.visits)
  cycle := q.cycle.next e

/-- Bytes are offered to the transport, or the application is told of bytes. -/
def Event.moves (e : Event T) : Bool :=
  e.offers || e.callback? == some .recv || e.callback? == some .send

/-- What is demanded of an event. -/
structure StageDemand (q : Stage) (e : Event T) : Prop where
  close : CloseDemand q.cycle e
  visits : e.visits = true → q.connected = false ∧ q.cycle ≠ .ended
  moves : e.moves = true → q.connected = true

def brackets (T : Type) : Observer Stage T where
  next := Stage.next
  demands := StageDemand

/-- What may still be told of the session. -/
def Stage.rest (q : Stage) : Language Callback :=
  match q.cycle, q.connected with
  | .ended, _ => 1
  | _, false => bracket
  | _, true => traffic * {[.close]}

section Words

variable {w : List Callback}

theorem append_mem_kstar {L : Language Callback} {v : List Callback} (hv : v ∈ L) (hw : w ∈ L∗) :
    v ++ w ∈ L∗ := by
  rw [← Language.one_add_self_mul_kstar_eq_kstar]
  exact .inr (Language.append_mem_mul hv hw)

theorem close_mem_traffic_mul : [.close] ∈ traffic * ({[.close]} : Language Callback) :=
  Language.append_mem_mul (a := []) (Language.nil_mem_kstar _) (Set.mem_singleton _)

theorem close_mem_bracket : [.close] ∈ bracket :=
  Language.append_mem_mul (a := []) (.inl Language.nil_mem_one) (Set.mem_singleton _)

theorem cons_mem_traffic_mul {c : Callback} (hc : c = .recv ∨ c = .send)
    (hw : w ∈ traffic * ({[.close]} : Language Callback)) :
    c :: w ∈ traffic * ({[.close]} : Language Callback) := by
  rcases Language.mem_mul.mp hw with ⟨u, hu, v, hv, rfl⟩
  refine Language.append_mem_mul (a := [c] ++ u) (append_mem_kstar ?_ hu) hv
  rcases hc with rfl | rfl
  · exact .inl rfl
  · exact .inr rfl

theorem connected_cons_mem_bracket (hw : w ∈ traffic * ({[.close]} : Language Callback)) :
    .connected :: w ∈ bracket := by
  rcases Language.mem_mul.mp hw with ⟨u, hu, v, hv, rfl⟩
  have hfront : [.connected] ++ u ∈ {[.connected]} * traffic :=
    Language.append_mem_mul (Set.mem_singleton _) hu
  exact Language.append_mem_mul ((Language.mem_add _ _ _).mpr (.inr hfront)) hv

end Words

section Accepts

variable {q : Stage} {e : Event T} {es trace : List (Event T)} {w : List Callback}

theorem Stage.rest_of_ended (h : q.cycle = .ended) : q.rest = 1 := by
  rw [rest, h]

theorem Stage.rest_of_ne_ended (h : q.cycle ≠ .ended) :
    q.rest = if q.connected then traffic * {[.close]} else bracket := by
  rcases q with ⟨_ | _, _ | _ | _⟩
  all_goals first | rfl | exact absurd rfl h

/-- However far a session has come, it can be told to the end. -/
theorem Stage.exists_mem_rest (q : Stage) : ∃ w, w ∈ q.rest := by
  by_cases hended : q.cycle = .ended
  · exact ⟨[], by rw [rest_of_ended hended]; exact Language.nil_mem_one⟩
  · rw [rest_of_ne_ended hended]
    cases q.connected with
    | true => exact ⟨_, close_mem_traffic_mul⟩
    | false => exact ⟨_, close_mem_bracket⟩

/-- A cycle ends by the notice of a close and in no other way. -/
theorem Cycle.next_eq_ended {c : Cycle} (hopens : e.opens = false) (hclose : e.tellsClose = false) :
    c.next e = .ended ↔ c = .ended := by
  rcases Cycle.next_of_quiet (c := c) hopens hclose with hnext | ⟨rfl, _, hnext⟩
  · rw [hnext]
  · rw [hnext]
    simp

/-- An event that tells nothing of the session's course. -/
theorem Stage.rest_next (hopens : e.opens = false) (hclose : e.tellsClose = false)
    (hvisits : e.visits = false) : (q.next e).rest = q.rest := by
  have hconnected : (q.next e).connected = q.connected := by
    rw [next, hopens, hvisits]
    simp
  have hended : (q.next e).cycle = .ended ↔ q.cycle = .ended :=
    Cycle.next_eq_ended hopens hclose
  by_cases h : q.cycle = .ended
  · rw [rest_of_ended h, rest_of_ended (hended.mpr h)]
  · rw [rest_of_ne_ended h, rest_of_ne_ended (mt hended.mp h), hconnected]

/-- What an event tells comes before what is told later. -/
theorem StageDemand.mem_rest (h : StageDemand q e) (hopens : e.opens = false)
    (hw : w ∈ (q.next e).rest) : e.callback?.toList ++ w ∈ q.rest := by
  -- the cycle can only end by an event that tells of the close
  have hended (hclose : e.tellsClose = false) (htells : q.cycle ≠ .ended) :
      (q.next e).cycle ≠ .ended := mt (Cycle.next_eq_ended hopens hclose).mp htells
  cases e with
  | told n s =>
      cases n with
      | visit =>
          -- a visit opens the bracket: the application is told that it is connected
          rcases h.visits rfl with ⟨hconnected, hrunning⟩
          rw [Stage.rest_of_ne_ended (hended rfl hrunning)] at hw
          rw [Stage.rest_of_ne_ended hrunning, hconnected]
          refine connected_cons_mem_bracket ?_
          simpa [Stage.next, Event.opens, Event.visits] using hw
      | recv | send =>
          have hconnected := h.moves rfl
          have hrunning := h.close.tells rfl
          rw [Stage.rest_next rfl rfl rfl] at hw
          rw [Stage.rest_of_ne_ended hrunning, hconnected] at hw ⊢
          exact cons_mem_traffic_mul (by simp) hw
      | close =>
          have hrunning := h.close.tells rfl
          -- the close ends the bracket, and nothing may come behind it
          have hdone : (q.next (.told .close s)).cycle = .ended :=
            Cycle.next_of_tellsClose (c := q.cycle) (e := .told .close s) rfl
          rw [Stage.rest_of_ended hdone, Language.mem_one] at hw
          rw [Stage.rest_of_ne_ended hrunning, hw]
          cases q.connected with
          | true => exact close_mem_traffic_mul
          | false => exact close_mem_bracket
      | interest on =>
          rw [Stage.rest_next rfl rfl rfl] at hw
          exact hw
  | called c answer s =>
      rw [Stage.rest_next hopens rfl rfl] at hw
      exact hw
  | returned | sent | received | idle =>
      rw [Stage.rest_next rfl rfl rfl] at hw
      exact hw

/-- The same of a stretch of a trace in which no session is opened. -/
theorem mem_rest_of_accepts (h : (brackets T).Accepts q es) (hopens : ∀ e ∈ es, e.opens = false)
    (hw : w ∈ ((brackets T).after q es).rest) : callbacks es ++ w ∈ q.rest := by
  induction es generalizing q with
  | nil => exact hw
  | cons e es ih =>
      rw [List.forall_mem_cons] at hopens
      have hrest := h.1.mem_rest hopens.1 (ih h.2 hopens.2 hw)
      rwa [callbacks_cons, List.append_assoc]

/-- What a session is told is the beginning of what it can be told, and all of it if its cycle has
ended. -/
theorem callbacks_of_accepts (h : (brackets T).Accepts q es) (hopens : ∀ e ∈ es, e.opens = false) :
    (∃ more, callbacks es ++ more ∈ q.rest) ∧
      (((brackets T).after q es).cycle = .ended → callbacks es ∈ q.rest) := by
  refine ⟨?_, fun hended => ?_⟩
  · rcases Stage.exists_mem_rest ((brackets T).after q es) with ⟨w, hw⟩
    exact ⟨w, mem_rest_of_accepts h hopens hw⟩
  · rw [← List.append_nil (callbacks es)]
    refine mem_rest_of_accepts h hopens ?_
    rw [Stage.rest_of_ended hended]
    exact Language.nil_mem_one

/-- Behind an open the session is at the beginning of its bracket. -/
theorem Stage.next_of_opens (h : e.opens = true) : q.next e = ⟨false, .running⟩ := by
  rw [next, h, Cycle.next_of_opens h]
  rfl

/-- The observer before and behind a session that is opened in a trace. -/
theorem accepts_life {start life rest : List (Event T)} {opening : Event T}
    (h : (brackets T).Accepts q (start ++ opening :: (life ++ rest)))
    (hopening : opening.opens = true) :
    (brackets T).Accepts ⟨false, .running⟩ life ∧
      (brackets T).Accepts ((brackets T).after ⟨false, .running⟩ life) rest := by
  have hbehind := (((brackets T).accepts_append _ _ _).mp h).2.2
  rw [show (brackets T).next _ opening = ⟨false, .running⟩ from Stage.next_of_opens hopening]
    at hbehind
  exact ((brackets T).accepts_append _ _ _).mp hbehind

/-- A session that has been connected was told so. -/
theorem connected_mem_callbacks (h : ((brackets T).after q es).connected = true)
    (hq : q.connected = false) : .connected ∈ callbacks es := by
  induction es generalizing q with
  | nil =>
      rw [show ((brackets T).after q []).connected = q.connected from rfl, hq] at h
      cases h
  | cons e es ih =>
      change ((brackets T).after (q.next e) es).connected = true at h
      have hlater : .connected ∈ callbacks es → .connected ∈ callbacks (e :: es) := by
        intro hmem
        rw [callbacks_cons]
        exact List.mem_append_right _ hmem
      -- if it is not this event that connects the application, it is a later one
      cases hvisits : e.visits with
      | false =>
          refine hlater (ih h ?_)
          rw [Stage.next, hvisits, hq]
          simp
      | true =>
          have htold : e.callback? = some .connected := by
            cases e with
            | told n s =>
                cases n with
                | visit => rfl
                | _ => cases hvisits
            | _ => cases hvisits
          exact List.mem_filterMap.mpr ⟨e, List.mem_cons_self, htold⟩

/-- The callbacks so far, with sessions that are opened in between. -/
theorem mem_kstar_of_accepts (h : (brackets T).Accepts q es) :
    ∃ more, callbacks es ++ more ∈ q.rest * bracket∗ := by
  induction es generalizing q with
  | nil =>
      rcases q.exists_mem_rest with ⟨w, hw⟩
      exact ⟨w ++ [], Language.append_mem_mul (a := w) hw (Language.nil_mem_kstar _)⟩
  | cons e es ih =>
      rcases ih h.2 with ⟨more, hmore⟩
      refine ⟨more, ?_⟩
      rw [callbacks_cons, List.append_assoc]
      rcases Language.mem_mul.mp hmore with ⟨u, hu, v, hv, huv⟩
      rw [← huv]
      cases hopens : e.opens with
      | false =>
          rw [← List.append_assoc]
          exact Language.append_mem_mul (h.1.mem_rest hopens hu) hv
      | true =>
          -- another bracket begins
          rw [show (brackets T).next q e = ⟨false, .running⟩ from Stage.next_of_opens hopens] at hu
          rw [e.callback?_of_opens hopens, Stage.rest_of_ended (h.1.close.opens hopens), one_mul]
          exact append_mem_kstar (v := u) hu hv

/-- The callbacks of an accepted trace come in brackets. If the last cycle has ended, the last
bracket is complete as well. -/
theorem InBrackets.of_accepts (h : (brackets T).Accepts .start trace) :
    InBrackets trace ∧ (((brackets T).after .start trace).cycle = .ended →
      ∀ life ∈ lives trace, callbacks life ∈ bracket) := by
  have hlife {life : List (Event T)} (hmem : life ∈ lives trace) : ∃ rest,
      (∀ next ∈ rest.head?, next.opens = true) ∧ (∀ e ∈ life, e.opens = false) ∧
      (brackets T).Accepts ⟨false, .running⟩ life ∧
      (brackets T).Accepts ((brackets T).after ⟨false, .running⟩ life) rest ∧
      (rest = [] →
        (brackets T).after .start trace = (brackets T).after ⟨false, .running⟩ life) := by
    rcases eq_append_of_mem_lives hmem with ⟨start, opening, rest, htrace, hopening, hopens, hnext⟩
    have haccepts := accepts_life (htrace ▸ h) hopening
    refine ⟨rest, hnext, hopens, haccepts.1, haccepts.2, ?_⟩
    rintro rfl
    rw [htrace, Observer.after_append, List.append_nil]
    show (brackets T).after ((brackets T).next _ opening) life = _
    rw [show (brackets T).next _ opening = ⟨false, .running⟩ from Stage.next_of_opens hopening]
  have hcomplete {life rest : List (Event T)} {next : Event T}
      (hopens : ∀ e ∈ life, e.opens = false)
      (haccepts : (brackets T).Accepts ⟨false, .running⟩ life)
      (hrest : (brackets T).Accepts ((brackets T).after ⟨false, .running⟩ life) (next :: rest))
      (hnext : next.opens = true) : callbacks life ∈ bracket :=
    (callbacks_of_accepts haccepts hopens).2 (hrest.1.close.opens hnext)
  -- a word that is a prefix of a word of the language is completed by what the stage allows
  refine ⟨⟨?_, ?_, fun life hmem => ?_, fun life hmem => ?_, fun life hmem => ?_⟩,
    fun hended life hmem => ?_⟩
  · rcases mem_kstar_of_accepts h with ⟨more, hmore⟩
    rw [Stage.rest_of_ended rfl, one_mul] at hmore
    exact ⟨more, hmore⟩
  · have hfirst := ((brackets T).accepts_append _ (trace.takeWhile (!·.opens))
      (trace.dropWhile (!·.opens))).mp (by rwa [List.takeWhile_append_dropWhile])
    rcases (callbacks_of_accepts hfirst.1 fun e he => by
      simpa using List.all_eq_true.mp List.all_takeWhile e he).1 with ⟨more, hmore⟩
    rw [Stage.rest_of_ended rfl, Language.mem_one, List.append_eq_nil_iff] at hmore
    rw [callbacks_eq_flatten, hmore.1, List.nil_append]
  · rcases hlife hmem with ⟨rest, _, hopens, haccepts, _⟩
    exact (callbacks_of_accepts haccepts hopens).1
  · rcases eq_append_of_mem_dropLast_lives hmem with
      ⟨start, opening, next, rest, htrace, hopening, hopens, hnext⟩
    have haccepts := accepts_life (htrace ▸ h) hopening
    exact hcomplete hopens haccepts.1 haccepts.2 hnext
  · rintro start e rest rfl hoffers
    rcases hlife hmem with ⟨_, _, _, haccepts, _⟩
    have hdemand : StageDemand _ e := haccepts.demands
    refine connected_mem_callbacks (hdemand.moves ?_) rfl
    rw [Event.moves, hoffers]
    rfl
  · rcases hlife hmem with ⟨rest, hnext, hopens, haccepts, hrest, hlast⟩
    cases rest with
    | nil => exact (callbacks_of_accepts haccepts hopens).2 (hlast rfl ▸ hended)
    | cons next rest => exact hcomplete hopens haccepts hrest (hnext next rfl)

/-- A watch over closes is a watch over brackets, as long as nobody opens or lends the session, and
no bytes move before the application is connected. -/
theorem accepts_brackets [Transport T] {c : Cycle} (connected : Bool)
    (h : (closeWatch T).Accepts c es) (hplain : ∀ e ∈ es, e.opens = false ∧ e.visits = false)
    (hmoves : connected = false → ∀ e ∈ es, e.moves = false) :
    (brackets T).Accepts ⟨connected, c⟩ es ∧
      (brackets T).after ⟨connected, c⟩ es = ⟨connected, (closeWatch T).after c es⟩ := by
  -- the two watches go through the same cycle, and the application stays connected or not
  induction es generalizing c with
  | nil => exact ⟨trivial, rfl⟩
  | cons e es ih =>
      rw [List.forall_mem_cons] at hplain
      rcases hplain with ⟨⟨hopens, hvisits⟩, hplain⟩
      have hnext : (brackets T).next ⟨connected, c⟩ e = ⟨connected, c.next e⟩ := by
        show Stage.next ⟨connected, c⟩ e = _
        rw [Stage.next, hopens, hvisits]
        simp
      -- what is demanded beyond the watch over closes is about events that do not occur here
      have hdemand : StageDemand ⟨connected, c⟩ e := by
        refine ⟨h.1, fun h' => ?_, fun h' => ?_⟩
        · rw [hvisits] at h'
          cases h'
        · cases connected with
          | true => rfl
          | false =>
              rw [hmoves rfl e List.mem_cons_self] at h'
              cases h'
      rcases ih h.2 hplain fun hfalse e' he' => hmoves hfalse e' (List.mem_cons_of_mem _ he') with
        ⟨haccepts, hafter⟩
      refine ⟨⟨hdemand, ?_⟩, ?_⟩
      · rw [hnext]
        exact haccepts
      · show (brackets T).after ((brackets T).next _ e) es = _
        rw [hnext]
        exact hafter

/-- The call by which a session that was just made is opened. -/
theorem brackets_openUp {H : Type} [Handler Socket H] (hended : q.cycle = .ended) (fuel : Nat)
    (socket : Socket) (recvCapacity sendCapacity now : Nat) (handler : H) :
    let d := Driven.new socket recvCapacity sendCapacity now handler
    (brackets Socket).Keeps (fun q' (r : Except SessionError Unit × Driven H Socket) =>
        (r.1 ≠ .ok () → q'.cycle = .ended) ∧
        (r.1 = .ok () → q' = ⟨false, .running⟩ ∧ InOrder .running r.2.session)) q
      (d.stepEvents fuel (.call .openUp)) d.openUp := by
  intro d
  rcases InOrder.keeps_openUp fuel socket recvCapacity sendCapacity now handler with
    ⟨haccepts, hrefused, hok⟩
  obtain ⟨connected, _⟩ := q
  obtain rfl : _ = Cycle.ended := hended
  have hevents : d.stepEvents fuel (.call .openUp) = [.called .openUp (some d.openUp.1) d.session,
    .returned .openUp d.openUp.1 d.openUp.2.session, .idle d.openUp.2.session] := rfl
  rw [hevents] at haccepts hrefused hok ⊢
  -- three events, whatever the answer
  generalize d.openUp = r at haccepts hrefused hok ⊢
  obtain ⟨answer, d'⟩ := r
  intro _
  cases answer with
  | error e =>
      -- nothing is opened, so all three are plain
      rcases accepts_brackets connected haccepts
        (by simp [Event.opens, Event.visits]) (by simp [Event.moves, Event.offers, Event.callback?])
        with ⟨hbrackets, hafter⟩
      refine ⟨hbrackets, fun _ => ?_, by simp⟩
      rw [hafter]
      exact hrefused (by simp)
  | ok =>
      rcases hok rfl with ⟨hrunning, horder⟩
      have hopens : (Event.called .openUp (some (.ok ())) d.session).opens = true := rfl
      have hdemand : StageDemand ⟨connected, .ended⟩ (.called .openUp (some (.ok ())) d.session) :=
        ⟨haccepts.1, by simp [Event.visits], by simp [Event.moves, Event.offers, Event.callback?]⟩
      have hnext : (brackets Socket).next ⟨connected, .ended⟩
          (.called .openUp (some (.ok ())) d.session) = ⟨false, .running⟩ :=
        Stage.next_of_opens hopens
      have hclose : (closeWatch Socket).next .ended
          (.called .openUp (some (.ok ())) d.session) = .running :=
        Cycle.next_of_opens (c := .ended) hopens
      rw [Observer.after, List.foldl_cons, hclose] at hrunning
      -- the first event opens the session, and the other two are plain
      have hrest := haccepts.2
      rw [hclose] at hrest
      rcases accepts_brackets false hrest (by simp [Event.opens, Event.visits])
        (by simp [Event.moves, Event.offers, Event.callback?]) with ⟨hbrackets, hafter⟩
      refine ⟨⟨hdemand, ?_⟩, by simp, fun _ => ⟨?_, horder⟩⟩
      · rw [hnext]
        exact hbrackets
      · rw [Observer.after, List.foldl_cons, hnext]
        exact hafter.trans (by rw [Observer.after, hrunning])

end Accepts
end TcpReactor.Session

namespace TcpReactor.Driven

open Session

variable {H T : Type} [Transport T] [Handler T H] {d : Driven H T}

/-! ## Steps by which no bytes move -/

/-- A step that neither receives nor sends. -/
def Step.Calm : Step H T → Prop
  | .call c => c.isPass = false
  | .visit _ => False
  | _ => True

omit [Transport T] [Handler T H] in
theorem moves_syncInterestEvents (d : Driven H T) :
    ∀ e ∈ d.syncInterestEvents, e.moves = false := by
  rw [syncInterestEvents]
  split
  · exact List.forall_mem_singleton.mpr rfl
  · exact List.forall_mem_nil _

omit [Transport T] in
theorem moves_settleEvents (d : Driven H T) : ∀ e ∈ d.settleEvents, e.moves = false := by
  rw [settleEvents]
  split
  · exact List.forall_mem_cons.mpr ⟨rfl, moves_syncInterestEvents _⟩
  · exact d.moves_syncInterestEvents

theorem moves_passEvents {c : Call} (hc : c.isPass = false) (fuel : Nat) (d : Driven H T) :
    ∀ e ∈ d.passEvents fuel c, e.moves = false := by
  cases c with
  | readable | writable => cases hc
  | openUp => exact List.forall_mem_nil _
  | close =>
      rw [passEvents, closeEvents]
      split
      · exact List.forall_mem_nil _
      · exact moves_settleEvents _
  | queueSend | sendFrame =>
      rw [passEvents_of_queues fuel d rfl]
      split
      · exact moves_syncInterestEvents _
      · exact List.forall_mem_nil _

theorem moves_stepEvents {step : Step H T} (hstep : step.Calm) (fuel : Nat) (d : Driven H T) :
    ∀ e ∈ d.stepEvents fuel step, e.moves = false := by
  refine List.forall_mem_append.mpr ⟨?_, ?_⟩
  · cases step with
    | call c =>
        rw [workEvents, performEvents]
        split
        · exact List.forall_mem_cons.mpr ⟨rfl, moves_passEvents hstep fuel d⟩
        · refine List.forall_mem_cons.mpr ⟨rfl, List.forall_mem_append.mpr ⟨?_, ?_⟩⟩
          · exact moves_passEvents hstep fuel d
          · exact List.forall_mem_singleton.mpr rfl
    | visit f => exact hstep.elim
    | _ => exact List.forall_mem_nil _
  · split
    · exact List.forall_mem_nil _
    · exact List.forall_mem_singleton.mpr rfl

theorem moves_trace {steps : List (Step H T)} (hsteps : ∀ step ∈ steps, step.Calm) (fuel : Nat)
    (d : Driven H T) : ∀ e ∈ d.trace fuel steps, e.moves = false := by
  induction steps generalizing d with
  | nil => exact List.forall_mem_nil _
  | cons step steps ih =>
      rw [List.forall_mem_cons] at hsteps
      rw [trace]
      refine List.forall_mem_append.mpr ⟨moves_stepEvents hsteps.1 fuel d, ?_⟩
      split
      · exact List.forall_mem_nil _
      · exact ih hsteps.2 _

end TcpReactor.Driven
