import Invoicing.Proofs.Index.Replay
import Invoicing.Proofs.Service.Interference
import Invoicing.Proofs.Service.Resume
import Invoicing.Proofs.Service.Topics

set_option autoImplicit false

/-! # Operations side by side

Any number of operations can be under way at a service, each with the calls that it still has to make (`Thread`), and a
schedule says who makes the next one (`Pool.act`). A synchronization holds the watermark from its first call to its last,
so that there is one of them at a time. Whatever the schedule, what the index lists stays listed, every transaction with a
receipt is listed, and a channel is read as of its look-up (`Pool.interleaving`). -/

namespace Invoicing

/-! ## Pools -/

/-- What can be under way. -/
inductive Operation where
  | persist (t : Transaction) (channel : String) (topics : List String)
  /-- All transactions of a channel. -/
  | read (channel : String)
  | synchronize (watermark : Timestamp)

namespace Operation

/-- What an operation comes to, if all goes well. -/
abbrev Answer : Operation → Type
  | persist _ _ _ => Receipt
  | read _ => List ChannelEntry
  | synchronize _ => Task.SyncReport × Timestamp

def task : (op : Operation) → Task op.Answer
  | persist t channel topics => Task.persist t channel topics
  | read channel => Task.channelEntries channel none
  | synchronize watermark => Task.synchronize watermark

/-- Where the watermark is to be after the operation. -/
def reach? : (op : Operation) → Except ServiceError op.Answer → Option Timestamp
  | synchronize _, .ok (_, last) => some last
  | _, _ => none

end Operation

/-- An operation under way, and the calls that are left. -/
structure Thread where
  op : Operation
  rest : Program (Except ServiceError op.Answer)

/-- An operation before its first call. -/
def Thread.start (op : Operation) : Thread := ⟨op, ExceptT.run op.task⟩

/-- A service and what is under way at it. -/
structure Pool where
  engine : Engine
  /-- Whose synchronization holds the watermark. -/
  holder : Option Nat
  threads : List Thread

/-- What can happen next. -/
inductive Act where
  | persist (t : Transaction) (channel : String) (topics : List String)
  | read (channel : String)
  | synchronize
  /-- An operation makes its next call, or lets go of the watermark after its last one. -/
  | advance (i : Nat)
  /-- Someone else appends a content with a time of their own. -/
  | append (content : String) (time : Timestamp)
  | setClock (now : Timestamp)

namespace Pool

/-- Nothing is under way. -/
def of (e : Engine) : Pool := ⟨e, none, []⟩

/-- One more operation, if the service is set up. -/
def begin (p : Pool) (op : Operation) : Pool :=
  if p.engine.isReady then { p with threads := p.threads ++ [.start op] } else p

/-- The holder of the watermark lets go of it, and moves it if all went well. -/
def release (p : Pool) (i : Nat) (reach? : Option Timestamp) : Pool :=
  if p.holder = some i then
    { p with holder := none, engine.watermark := reach?.getD p.engine.watermark }
  else p

/-- Lets the operation with this number go on. -/
def advance (p : Pool) (i : Nat) : Pool :=
  match p.threads[i]? with
  | none => p
  | some ⟨op, .done result⟩ => p.release i (op.reach? result)
  | some ⟨op, .call c next⟩ =>
    let (answer, site) := c.run p.engine.site
    { p with engine := { p.engine with site }, threads := p.threads.set i ⟨op, next answer⟩ }

def act (p : Pool) : Act → Pool
  | .persist t channel topics => p.begin (.persist t channel topics)
  | .read channel => p.begin (.read channel)
  | .synchronize =>
    -- A second synchronization waits until the watermark is free.
    if p.engine.isReady ∧ p.holder = none then
      { p.begin (.synchronize p.engine.watermark) with holder := some p.threads.length }
    else p
  | .advance i => p.advance i
  | .append content time => { p with engine := p.engine.next (.append content time) }
  | .setClock now => { p with engine := p.engine.next (.setClock now) }

/-- The pool after some acts. -/
def after (p : Pool) (acts : List Act) : Pool := acts.foldl act p

@[simp] theorem after_nil (p : Pool) : p.after [] = p := rfl

theorem after_append (p : Pool) (acts later : List Act) : p.after (acts ++ later) = (p.after acts).after later :=
  List.foldl_append

theorem after_concat (p : Pool) (acts : List Act) (a : Act) : p.after (acts ++ [a]) = (p.after acts).act a :=
  after_append p acts [a]

variable {p : Pool} {i : Nat} {op : Operation}

theorem advance_done {result : Except ServiceError op.Answer} (hi : p.threads[i]? = some ⟨op, .done result⟩) :
    p.advance i = p.release i (op.reach? result) := by
  simp only [advance, hi]

theorem advance_call {β : Type} {c : Call β} {next : β → Program (Except ServiceError op.Answer)}
    (hi : p.threads[i]? = some ⟨op, .call c next⟩) :
    p.advance i = { p with
      engine := { p.engine with site := (c.run p.engine.site).2 }
      threads := p.threads.set i ⟨op, next (c.run p.engine.site).1⟩ } := by
  simp only [advance, hi]

/-- After a call, the thread that made it goes on where the answer leads, and all others are as before. -/
theorem threads_advance {β : Type} {c : Call β} {next : β → Program (Except ServiceError op.Answer)}
    (hi : p.threads[i]? = some ⟨op, .call c next⟩) {j : Nat} {th : Thread}
    (hj : (p.advance i).threads[j]? = some th) :
    j = i ∧ th = ⟨op, next (c.run p.engine.site).1⟩ ∨ p.threads[j]? = some th := by
  rw [advance_call hi, List.getElem?_set] at hj
  split at hj
  · next hij =>
    split at hj
    · exact .inl ⟨hij.symm, (Option.some.inj hj).symm⟩
    · cases hj
  · exact .inr hj

theorem advance_none (hi : p.threads[i]? = none) : p.advance i = p := by
  simp only [advance, hi]

@[simp] theorem begin_engine (p : Pool) (op : Operation) : (p.begin op).engine = p.engine := by
  unfold begin
  split <;> rfl

@[simp] theorem begin_holder (p : Pool) (op : Operation) : (p.begin op).holder = p.holder := by
  unfold begin
  split <;> rfl

/-- A thread that is started is the last one. -/
theorem threads_begin {th : Thread} (hi : (p.begin op).threads[i]? = some th) :
    p.threads[i]? = some th ∨ i = p.threads.length ∧ th = .start op := by
  unfold Pool.begin at hi
  split at hi
  · rw [List.getElem?_append] at hi
    split at hi
    · exact .inl hi
    · next hle =>
      rw [List.getElem?_singleton] at hi
      split at hi
      · exact .inr ⟨by omega, (Option.some.inj hi).symm⟩
      · cases hi
  · exact .inl hi

@[simp] theorem release_engine_site (p : Pool) (i : Nat) (reach? : Option Timestamp) :
    (p.release i reach?).engine.site = p.engine.site := by
  unfold release
  split <;> rfl

@[simp] theorem release_engine_isReady (p : Pool) (i : Nat) (reach? : Option Timestamp) :
    (p.release i reach?).engine.isReady = p.engine.isReady := by
  unfold release
  split <;> rfl

@[simp] theorem release_threads (p : Pool) (i : Nat) (reach? : Option Timestamp) :
    (p.release i reach?).threads = p.threads := by
  unfold release
  split <;> rfl

/-! ## Operations that are let alone -/

/-- An operation that makes all its calls in a row ends as its program does. -/
theorem after_advances {rest : Program (Except ServiceError op.Answer)} (hi : p.threads[i]? = some ⟨op, rest⟩) :
    ∃ n, p.after (List.replicate n (.advance i)) = { p with
      engine := { p.engine with site := (rest.run p.engine.site).2 }
      threads := p.threads.set i ⟨op, .done (rest.run p.engine.site).1⟩ } := by
  induction rest generalizing p with
  | done result =>
    refine ⟨0, ?_⟩
    have hset : p.threads.set i ⟨op, .done result⟩ = p.threads := by
      obtain ⟨hlt, hget⟩ := List.getElem?_eq_some_iff.1 hi
      rw [← hget, List.set_getElem_self]
    show p = { p with threads := p.threads.set i ⟨op, .done result⟩ }
    rw [hset]
  | call c next ih =>
    have hnext := advance_call hi
    have hown : (p.advance i).threads[i]? = some ⟨op, next (c.run p.engine.site).1⟩ := by
      obtain ⟨hlt, -⟩ := List.getElem?_eq_some_iff.1 hi
      rw [hnext, List.getElem?_set_self hlt]
    obtain ⟨n, hn⟩ := ih _ hown
    refine ⟨n + 1, ?_⟩
    rw [List.replicate_succ]
    show (p.advance i).after _ = _
    rw [hn, hnext]
    simp only [List.set_set]
    rfl

/-- Whatever else is under way, an operation can come to its end while all others wait. -/
theorem exists_done {rest : Program (Except ServiceError op.Answer)} (hi : p.threads[i]? = some ⟨op, rest⟩) :
    ∃ n result, (p.after (List.replicate n (.advance i))).threads[i]? = some ⟨op, .done result⟩ ∧
      ∀ j, i ≠ j → (p.after (List.replicate n (.advance i))).threads[j]? = p.threads[j]? := by
  obtain ⟨n, hn⟩ := after_advances hi
  obtain ⟨hlt, -⟩ := List.getElem?_eq_some_iff.1 hi
  refine ⟨n, (rest.run p.engine.site).1, ?_, fun j hj => ?_⟩
  · rw [hn, List.getElem?_set_self hlt]
  · rw [hn, List.getElem?_set_ne hj]

/-- So an operation that begins and is let alone does what the engine does. -/
theorem after_begin (hready : p.engine.isReady = true) (op : Operation) :
    ∃ n, (p.begin op).after (List.replicate n (.advance p.threads.length)) = { p with
      engine := (p.engine.perform op.task).2
      threads := p.threads ++ [⟨op, .done (p.engine.perform op.task).1⟩] } := by
  have hbegin : p.begin op = { p with threads := p.threads ++ [.start op] } := if_pos hready
  have hown : (p.begin op).threads[p.threads.length]? = some ⟨op, ExceptT.run op.task⟩ := by
    rw [hbegin, List.getElem?_concat_length]
    rfl
  obtain ⟨n, hn⟩ := after_advances hown
  refine ⟨n, ?_⟩
  rw [hn, Engine.perform_ready hready, hbegin]
  simp [Task.run]

/-! ## The invariant -/

/-- The channel was looked up at some moment, and `r` is what reading it at that moment would have come to. -/
def ReadAt (start : Pool) (acts : List Act) (i : Nat) (channel : String)
    (r : Except ServiceError (List ChannelEntry)) : Prop :=
  ∃ before later, acts = before ++ .advance i :: later ∧
    (start.after before).threads[i]? = some (.start (.read channel)) ∧
    r = ((start.after before).engine.perform (Task.channelEntries channel none)).1

theorem ReadAt.append {start : Pool} {acts : List Act} {channel : String}
    {r : Except ServiceError (List ChannelEntry)} (hr : start.ReadAt acts i channel r) (a : Act) :
    start.ReadAt (acts ++ [a]) i channel r := by
  obtain ⟨before, later, rfl, hrest⟩ := hr
  exact ⟨before, later ++ [a], by simp, hrest⟩

/-- What the calls that are left have to keep to. -/
def Justified (start : Pool) (acts : List Act) (i : Nat) (site : Site) (h : History) : Thread → Prop
  | ⟨.persist t channel topics, rest⟩ => rest.Safe (Task.Persisted t channel topics) site h
  | ⟨.read channel, rest⟩ =>
    rest = ExceptT.run (Task.channelEntries channel none) ∨
      rest.Safe (fun r _ _ => start.ReadAt acts i channel r) site h
  | ⟨.synchronize _, rest⟩ => rest.Safe (fun _ _ _ => True) site h

/-- The index holds a history of what is in the log, and every thread is on its way. -/
structure Orderly (start : Pool) (acts : List Act) (p : Pool) (h : History) : Prop where
  sound : p.engine.site.Sound h
  ready : p.threads ≠ [] → p.engine.isReady = true
  justified : ∀ i th, p.threads[i]? = some th → Justified start acts i p.engine.site h th

variable {start : Pool} {acts : List Act} {h : History}

/-- What others do does not get in a thread's way. -/
theorem Justified.later {site site' : Site} {h' : History} {th : Thread} (hth : Justified start acts i site h th)
    (hev : site.Evolves h site' h') (a : Act) : Justified start (acts ++ [a]) i site' h' th := by
  obtain ⟨op, rest⟩ := th
  cases op with
  | persist t channel topics => exact Program.Safe.later hth hev
  | read channel =>
    refine hth.imp_right fun hsafe => ?_
    exact (hsafe.later hev).mono fun r _ _ hr => hr.append a
  | synchronize watermark => exact Program.Safe.later hth hev

theorem justified_start (start : Pool) (acts : List Act) (i : Nat) (site : Site) (h : History) (op : Operation) :
    Justified start acts i site h (.start op) := by
  cases op with
  | persist t channel topics => exact Task.safe_persist site h t channel topics
  | read channel => exact .inl rfl
  | synchronize watermark => exact Task.safe_synchronize site h watermark

/-- A thread makes a call and goes on. -/
theorem Justified.advance {β : Type} {c : Call β} {next : β → Program (Except ServiceError op.Answer)}
    (ho : Orderly start acts (start.after acts) h) (hi : (start.after acts).threads[i]? = some ⟨op, .call c next⟩) :
    let site := (start.after acts).engine.site
    ∃ h', site.Evolves h (c.run site).2 h' ∧
      Justified start (acts ++ [.advance i]) i (c.run site).2 h' ⟨op, next (c.run site).1⟩ := by
  intro site
  have hth := ho.justified i _ hi
  cases op with
  | persist t channel topics => exact hth site h ho.sound.refl
  | synchronize watermark => exact hth site h ho.sound.refl
  | read channel =>
    rcases hth with hfirst | hsafe
    · -- The first call is the look-up, and it settles what is read.
      obtain ⟨hev, hnext⟩ := Task.safe_channelEntries ho.sound channel hfirst
      refine ⟨h, hev, .inr (hnext.mono fun r _ _ hr => ⟨acts, [], rfl, ?_, ?_⟩)⟩
      · rw [hi, hfirst]
        rfl
      · have hready := ho.ready fun hnone => by
          rw [hnone] at hi
          cases hi
        rw [Engine.perform_ready hready]
        exact hr
    · obtain ⟨h', hev, hnext⟩ := hsafe site h ho.sound.refl
      exact ⟨h', hev, .inr (hnext.mono fun r _ _ hr => hr.append _)⟩

/-- Nothing is started or called, and the site evolves. -/
theorem Orderly.evolve {q : Pool} {h' : History} (ho : Orderly start acts p h)
    (hev : p.engine.site.Evolves h q.engine.site h') (hready : q.engine.isReady = p.engine.isReady)
    (hthreads : q.threads = p.threads) (a : Act) : Orderly start (acts ++ [a]) q h' where
  sound := hev.sound
  ready hsome := by
    rw [hready]
    rw [hthreads] at hsome
    exact ho.ready hsome
  justified j th hj := by
    rw [hthreads] at hj
    exact (ho.justified j th hj).later hev a

theorem Orderly.hold (ho : Orderly start acts p h) (holder : Option Nat) :
    Orderly start acts { p with holder } h := ⟨ho.sound, ho.ready, ho.justified⟩

theorem Orderly.begin (ho : Orderly start acts p h) (op : Operation) (a : Act) :
    Orderly start (acts ++ [a]) (p.begin op) h where
  sound := by
    rw [begin_engine]
    exact ho.sound
  ready hsome := by
    rw [begin_engine]
    by_cases hready : p.engine.isReady = true
    · exact hready
    · rw [Pool.begin, if_neg hready] at hsome
      exact ho.ready hsome
  justified j th hj := by
    rw [begin_engine]
    rcases threads_begin hj with hold | ⟨-, rfl⟩
    · exact (ho.justified j th hold).later ho.sound.refl a
    · exact justified_start start _ j _ h op

/-- The site evolves with a call, and so does the thread that makes it. -/
theorem Orderly.advance (ho : Orderly start acts (start.after acts) h) (i : Nat) :
    ∃ h', Orderly start (acts ++ [.advance i]) ((start.after acts).advance i) h' ∧
      (start.after acts).engine.site.Evolves h ((start.after acts).advance i).engine.site h' := by
  have hrefl := ho.sound.refl
  cases hi : (start.after acts).threads[i]? with
  | none =>
    rw [advance_none hi]
    exact ⟨h, ho.evolve hrefl rfl rfl _, hrefl⟩
  | some th =>
    obtain ⟨op, rest⟩ := th
    cases rest with
    | done result =>
      rw [advance_done hi, release_engine_site]
      refine ⟨h, ho.evolve ?_ (release_engine_isReady _ _ _) (release_threads _ _ _) _, hrefl⟩
      rw [release_engine_site]
      exact hrefl
    | call c next =>
      obtain ⟨h', hev, hown⟩ := Justified.advance ho hi
      have hsite : ((start.after acts).advance i).engine = { (start.after acts).engine with
          site := (c.run (start.after acts).engine.site).2 } := by rw [advance_call hi]
      refine ⟨h', ⟨?_, fun _ => ?_, fun j th hj => ?_⟩, ?_⟩ <;> rw [hsite]
      · exact hev.sound
      · refine ho.ready fun hnone => ?_
        rw [hnone] at hi
        cases hi
      · rcases threads_advance hi hj with ⟨rfl, rfl⟩ | hother
        · exact hown
        · exact (ho.justified j th hother).later hev _
      · exact hev

/-- **Every act keeps the pool in order,** and lets the site evolve. -/
theorem Orderly.act (ho : Orderly start acts (start.after acts) h) (a : Act) :
    ∃ h', Orderly start (acts ++ [a]) (start.after (acts ++ [a])) h' ∧
      (start.after acts).engine.site.Evolves h (start.after (acts ++ [a])).engine.site h' := by
  rw [after_concat]
  have hrefl := ho.sound.refl
  cases a with
  | persist t channel topics =>
    refine ⟨h, ho.begin _ _, ?_⟩
    rw [Pool.act, begin_engine]
    exact hrefl
  | read channel =>
    refine ⟨h, ho.begin _ _, ?_⟩
    rw [Pool.act, begin_engine]
    exact hrefl
  | synchronize =>
    simp only [Pool.act]
    split
    · refine ⟨h, (ho.begin _ _).hold _, ?_⟩
      rw [begin_engine]
      exact hrefl
    · exact ⟨h, ho.evolve hrefl rfl rfl _, hrefl⟩
  | advance i => exact ho.advance i
  | append content time =>
    have hev := ho.sound.append content time
    exact ⟨h, ho.evolve (q := (start.after acts).act (.append content time)) hev rfl rfl _, hev⟩
  | setClock now =>
    have hev := ho.sound.setClock now
    exact ⟨h, ho.evolve (q := (start.after acts).act (.setClock now)) hev rfl rfl _, hev⟩

/-- Any schedule keeps the pool in order, from any moment on. -/
theorem Orderly.after (ho : Orderly start acts (start.after acts) h) (later : List Act) :
    ∃ h', Orderly start (acts ++ later) (start.after (acts ++ later)) h' ∧
      (start.after acts).engine.site.Evolves h (start.after (acts ++ later)).engine.site h' := by
  induction later generalizing acts h with
  | nil =>
    rw [List.append_nil]
    exact ⟨h, ho, ho.sound.refl⟩
  | cons a later ih =>
    obtain ⟨h', ho', hev⟩ := ho.act a
    obtain ⟨h'', ho'', hev'⟩ := ih ho'
    rw [List.append_assoc, List.singleton_append] at ho'' hev'
    exact ⟨h'', ho'', hev.trans hev'⟩

theorem orderly_of {e : Engine} (hs : e.site.Sound h) : Orderly (.of e) [] ((Pool.of e).after []) h :=
  ⟨hs, fun hsome => absurd rfl hsome, fun i th hi => by cases hi⟩

/-! ## One synchronization at a time -/

/-- Every synchronization that is not over holds the watermark. -/
def Exclusive (p : Pool) : Prop :=
  ∀ i watermark rest, p.threads[i]? = some ⟨.synchronize watermark, rest⟩ →
    (∃ result, rest = .done result) ∨ p.holder = some i

theorem Exclusive.begin (hx : p.Exclusive) (hop : ∀ watermark, op ≠ .synchronize watermark) :
    (p.begin op).Exclusive := by
  intro i watermark rest hi
  rw [begin_holder]
  rcases threads_begin hi with hold | ⟨-, hnew⟩
  · exact hx i watermark rest hold
  · cases hnew
    exact absurd rfl (hop watermark)

/-- A synchronization can begin when all others are over. -/
theorem Exclusive.synchronize (hx : p.Exclusive) (hfree : p.holder = none) (watermark : Timestamp) :
    Exclusive { p.begin (.synchronize watermark) with holder := some p.threads.length } := by
  intro i watermark' rest hi
  rcases threads_begin hi with hold | ⟨hlast, -⟩
  · rcases hx i watermark' rest hold with hdone | hholder
    · exact .inl hdone
    · rw [hfree] at hholder
      cases hholder
  · exact .inr (congrArg some hlast.symm)

theorem Exclusive.advance (hx : p.Exclusive) (i : Nat) : (p.advance i).Exclusive := by
  cases hi : p.threads[i]? with
  | none =>
    rw [advance_none hi]
    exact hx
  | some th =>
    obtain ⟨op, rest⟩ := th
    cases rest with
    | done result =>
      rw [advance_done hi]
      unfold release
      split
      · next hholder =>
        -- Only the holder was not over, and now it is.
        intro j watermark rest hj
        rcases hx j watermark rest hj with hdone | hother
        · exact .inl hdone
        · obtain rfl : i = j := Option.some.inj (hholder.symm.trans hother)
          cases hi.symm.trans hj
          exact .inl ⟨result, rfl⟩
      · exact hx
    | call c next =>
      intro j watermark rest hj
      have hholder : (p.advance i).holder = p.holder := by rw [advance_call hi]
      rw [hholder]
      rcases threads_advance hi hj with ⟨rfl, hth⟩ | hother
      · -- The caller was not over before its call, so it is the holder.
        cases hth
        rcases hx j watermark (.call c next) hi with ⟨result, hdone⟩ | hown
        · cases hdone
        · exact .inr hown
      · exact hx j watermark rest hother

theorem Exclusive.act (hx : p.Exclusive) (a : Act) : (p.act a).Exclusive := by
  cases a with
  | persist t channel topics => exact hx.begin nofun
  | read channel => exact hx.begin nofun
  | synchronize =>
    simp only [Pool.act]
    split
    · next hfree => exact hx.synchronize hfree.2 _
    · exact hx
  | advance i => exact hx.advance i
  | append content time => exact hx
  | setClock now => exact hx

theorem exclusive_after (e : Engine) (acts : List Act) : ((Pool.of e).after acts).Exclusive := by
  induction acts using List.reverseRecOn with
  | nil =>
    intro i watermark rest hi
    cases hi
  | append_singleton acts a ih =>
    rw [after_concat]
    exact ih.act a

/-- In every schedule there is at most one synchronization that is not over. -/
theorem eq_of_synchronizing (e : Engine) (acts : List Act) {i j : Nat} {watermark watermark' : Timestamp}
    {rest rest' : Program (Except ServiceError (Task.SyncReport × Timestamp))}
    (hi : ((Pool.of e).after acts).threads[i]? = some ⟨.synchronize watermark, rest⟩)
    (hj : ((Pool.of e).after acts).threads[j]? = some ⟨.synchronize watermark', rest'⟩)
    (hrest : ¬ ∃ result, rest = .done result) (hrest' : ¬ ∃ result, rest' = .done result) : i = j := by
  have hx := exclusive_after e acts
  have hholder := (hx i watermark rest hi).resolve_left hrest
  exact Option.some.inj (hholder.symm.trans ((hx j watermark' rest' hj).resolve_left hrest'))

/-! ## What the index lists -/

/-- Latest times never go back. -/
theorem latest?_of_prefix {h h' : History} (hbefore : h <+: h') {topic channel : String} {time : Timestamp}
    (htime : h.latest? topic channel = some time) : ∃ time', h'.latest? topic channel = some time' ∧ time ≤ time' := by
  obtain ⟨added, rfl⟩ := hbefore
  induction added using List.reverseRecOn with
  | nil => exact ⟨time, by simpa using htime, UInt64.le_refl _⟩
  | append_singleton added a ih =>
    obtain ⟨time', htime', hle⟩ := ih
    rw [← List.append_assoc, History.latest?_append_single]
    split
    · simp only [htime', Option.getD_some]
      exact ⟨_, rfl, Records.le_max_of_le _ hle⟩
    · exact ⟨time', htime', hle⟩

/-- A topic is not older than any block that tags a channel with it. -/
theorem le_latest? {h : History} (hd : h.Dated) {a : Addition} (ha : a ∈ h) {topic channel : String}
    (htags : a.tags channel topic) : ∃ time, h.latest? topic channel = some time ∧ a.timestamp ≤ time := by
  obtain ⟨time, htime⟩ := Option.isSome_iff_exists.1 (History.isSome_latest? ha htags)
  refine ⟨time, htime, ?_⟩
  rw [History.latest?, hd.updates_eq, List.max?_eq_some_iff] at htime
  exact htime.2 _ (List.mem_map.2 ⟨a, List.mem_filter.2 ⟨ha, htags⟩, rfl⟩)

/-- A location that is listed stays listed, and reads the same from then on. -/
theorem listed_of_evolves {site site' : Site} {h' : History} (hs : site.Sound h) (hev : site.Evolves h site' h')
    {channel location : String} (hl : location ∈ site.index.store.records.locationsOf channel) :
    location ∈ site'.index.store.records.locationsOf channel ∧
      ∃ result, site.storage.log.read location = .ok result ∧ site'.storage.log.read location = .ok result := by
  rw [hs.records.locationsOf_eq] at hl
  obtain ⟨result, hresult⟩ := hs.read_listed hl
  refine ⟨?_, result, hresult, hev.read hresult⟩
  obtain ⟨a, ha, hrest⟩ := History.mem_locationsOf.1 hl
  rw [hev.sound.records.locationsOf_eq, History.mem_locationsOf]
  exact ⟨a, hev.history.subset ha, hrest⟩

theorem tagged_of_evolves {site site' : Site} {h' : History} (hs : site.Sound h) (hev : site.Evolves h site' h')
    {topic channel : String} {time : Timestamp}
    (htime : (site.index.store.records.latestOf topic).get? channel = some time) :
    ∃ time', (site'.index.store.records.latestOf topic).get? channel = some time' ∧ time ≤ time' := by
  rw [hs.records.get?_latestOf] at htime
  rw [hev.sound.records.get?_latestOf]
  exact latest?_of_prefix hev.history htime

/-- What is known of a transaction once all its calls are made. -/
theorem Orderly.persisted (ho : Orderly start acts p h) {t : Transaction} {channel : String} {topics : List String}
    {r : Except ServiceError Receipt} (hi : p.threads[i]? = some ⟨.persist t channel topics, .done r⟩) :
    Task.Persisted t channel topics r p.engine.site h :=
  ho.justified i _ hi p.engine.site h ho.sound.refl

/-- What a transaction with a receipt has left in the index. -/
theorem Orderly.receipt (ho : Orderly start acts p h) {t : Transaction} {channel : String} {topics : List String}
    {receipt : Receipt} (hi : p.threads[i]? = some ⟨.persist t channel topics, .done (.ok receipt)⟩) :
    let records := p.engine.site.index.store.records
    (∃ blob ∈ p.engine.site.storage.log.blobs, blob.location = receipt.location ∧ blob.info = receipt.info) ∧
      records.timeOf? receipt.location = some receipt.info.timestamp ∧
      receipt.location ∈ records.locationsOf channel ∧
      ∀ topic ∈ topics, ∃ time, (records.latestOf topic).get? channel = some time ∧ receipt.info.timestamp ≤ time := by
  intro records
  have hdone := ho.persisted hi
  unfold Task.Persisted at hdone
  split at hdone
  · cases hdone
  · obtain ⟨receipt', hreceipt, hblob, hadded⟩ := hdone
    cases hreceipt
    have hdated := History.dated_of_stored ho.sound.nodup ho.sound.stored
    have hold := ho.sound.records
    refine ⟨hblob, ?_, ?_, fun topic htopic => ?_⟩
    · rw [hold.timeOf?_eq]
      exact hdated.timeOf?_eq hadded
    · rw [hold.locationsOf_eq]
      exact History.mem_locationsOf.2
        ⟨_, hadded, (@Engine.mentions_additionFor t channel channel topics p.engine.site).2 rfl, rfl⟩
    · rw [hold.get?_latestOf]
      exact le_latest? hdated hadded ((@tags_additionFor p.engine.site t channel channel topic topics).2 ⟨rfl, htopic⟩)

/-- Only malformed topics keep a transaction from getting a receipt. -/
theorem Orderly.refused (ho : Orderly start acts p h) {t : Transaction} {channel : String} {topics : List String}
    {error : ServiceError} (hi : p.threads[i]? = some ⟨.persist t channel topics, .done (.error error)⟩) :
    Task.checkTopics topics = .error error := by
  have hdone := ho.persisted hi
  unfold Task.Persisted at hdone
  split at hdone
  · next e htopics => rw [htopics, ← Except.error.inj hdone]
  · obtain ⟨receipt, hreceipt, -⟩ := hdone
    cases hreceipt

/-- A query that has come to its end is past its look-up. -/
theorem Orderly.readAt (ho : Orderly start acts p h) {channel : String}
    {r : Except ServiceError (List ChannelEntry)} (hi : p.threads[i]? = some ⟨.read channel, .done r⟩) :
    start.ReadAt acts i channel r := by
  rcases ho.justified i _ hi with hfirst | hsafe
  · rw [Task.run_channelEntries_eq] at hfirst
    cases hfirst
  · exact hsafe p.engine.site h ho.sound.refl

/-- **Any interleaving is safe.** Let any operations of a service make their calls in any order, over a storage that
keeps what it is given and an index that does not fail, while others append contents and the clock is set. What the
index lists at some moment, it lists from then on: a location once in its channel, and a channel under its topic with a time
that does not go back. A location that is listed reads the same from then on, so it makes no difference in which order a
query reads. A transaction with a receipt is in the log and listed with its time there, and one without had malformed
topics. And each channel is read as if all its calls had been made when it was looked up. -/
theorem interleaving (turns : List Turn) (now : Timestamp) (e : Engine)
    (he : e = (Engine.new (.empty now)).through turns) (hquiet : e.site.index.store.Quiet) (acts later : List Act) :
    let p := (Pool.of e).after acts
    let p' := p.after later
    let records := p.engine.site.index.store.records
    let records' := p'.engine.site.index.store.records
    (∀ channel, (records.locationsOf channel).Nodup ∧
      ∀ location ∈ records.locationsOf channel, location ∈ records'.locationsOf channel ∧
        ∃ result, p.engine.site.storage.log.read location = .ok result ∧
          p'.engine.site.storage.log.read location = .ok result) ∧
    (∀ topic channel time, (records.latestOf topic).get? channel = some time →
      ∃ time', (records'.latestOf topic).get? channel = some time' ∧ time ≤ time') ∧
    (∀ (i : Nat) t channel topics receipt, p.threads[i]? = some ⟨.persist t channel topics, .done (.ok receipt)⟩ →
      (∃ blob ∈ p.engine.site.storage.log.blobs, blob.location = receipt.location ∧ blob.info = receipt.info) ∧
      records.timeOf? receipt.location = some receipt.info.timestamp ∧
      receipt.location ∈ records.locationsOf channel ∧
      ∀ topic ∈ topics, ∃ time,
        (records.latestOf topic).get? channel = some time ∧ receipt.info.timestamp ≤ time) ∧
    (∀ (i : Nat) t channel topics error, p.threads[i]? = some ⟨.persist t channel topics, .done (.error error)⟩ →
      Task.checkTopics topics = .error error) ∧
    ∀ (i : Nat) channel result, p.threads[i]? = some ⟨.read channel, .done result⟩ →
      ∃ before rest, acts = before ++ .advance i :: rest ∧
        let moment := (Pool.of e).after before
        moment.threads[i]? = some (.start (.read channel)) ∧
        result = (moment.engine.perform (Task.channelEntries channel none)).1 := by
  intro p p' records records'
  obtain ⟨h₀, hc, hnodup, hstored⟩ := Engine.stored_through turns now
  rw [← he] at hc hnodup hstored
  have hstart : e.site.Sound h₀ := ⟨hc.script, hc.records, hquiet, hnodup, hstored⟩
  obtain ⟨h, ho, -⟩ := (orderly_of hstart).after acts
  rw [List.nil_append] at ho
  obtain ⟨h', -, hev⟩ := ho.after later
  rw [after_append] at hev
  refine ⟨fun channel => ⟨?_, fun location hlocation => listed_of_evolves ho.sound hev hlocation⟩,
    fun topic channel time htime => tagged_of_evolves ho.sound hev htime,
    fun i t channel topics receipt hi => ho.receipt hi, fun i t channel topics error hi => ho.refused hi,
    fun i channel result hi => ho.readAt hi⟩
  rw [ho.sound.records.locationsOf_eq]
  exact h.nodup_locationsOf channel

/-- The service has just been set up. -/
def trialTurns : List Turn := [.event .setUp, .event (.schedule .never .never .never)]

/-- A transaction is appended, and before its block is indexed a synchronization and a reader come in. -/
def trialActs : List Act :=
  [.persist Block.trialTransaction Block.trialChannel [Block.trialTopic], .advance 0, .synchronize,
    .read Block.trialChannel]

/-- In the trial all three operations come to their end, and the transaction is indexed twice but listed once. -/
theorem interleaving_trial : ∃ e acts, e = (Engine.new (.empty 10)).through trialTurns ∧
    let p := (Pool.of e).after (trialActs ++ acts)
    let records := p.engine.site.index.store.records
    (∃ result, p.threads[1]? = some ⟨.synchronize 10, .done result⟩) ∧
    (records.locationsOf Block.trialChannel).Nodup ∧
    (∃ receipt, p.threads[0]? = some ⟨.persist Block.trialTransaction Block.trialChannel [Block.trialTopic],
      .done (.ok receipt)⟩ ∧ records.timeOf? receipt.location = some receipt.info.timestamp) ∧
    ∃ result before rest, p.threads[2]? = some ⟨.read Block.trialChannel, .done result⟩ ∧
      trialActs ++ acts = before ++ .advance 2 :: rest ∧
      result = (((Pool.of e).after before).engine.perform (Task.channelEntries Block.trialChannel none)).1 := by
  obtain ⟨e, he⟩ : ∃ e, e = (Engine.new (.empty 10)).through trialTurns := ⟨_, rfl⟩
  have hquiet : e.site.index.store.Quiet := by
    rw [he]
    exact (Engine.quiet_schedule _).2
  obtain ⟨p₀, hp₀⟩ : ∃ p₀, p₀ = (Pool.of e).after trialActs := ⟨_, rfl⟩
  obtain ⟨rest₀, h₀⟩ : ∃ rest, p₀.threads[0]? = some ⟨.persist Block.trialTransaction Block.trialChannel
      [Block.trialTopic], rest⟩ := by
    rw [hp₀, he]
    exact ⟨_, rfl⟩
  obtain ⟨rest₁, h₁⟩ : ∃ rest, p₀.threads[1]? = some ⟨.synchronize 10, rest⟩ := by
    rw [hp₀, he]
    exact ⟨_, rfl⟩
  have h₂ : p₀.threads[2]? = some (.start (.read Block.trialChannel)) := by
    rw [hp₀, he]
    rfl
  -- The synchronization goes first, then the reader, and the writer indexes its block last.
  obtain ⟨n₁, result₁, hdone₁, hothers₁⟩ := exists_done h₁
  obtain ⟨n₂, result₂, hdone₂, hothers₂⟩ := exists_done ((hothers₁ 2 (by decide)).trans h₂)
  obtain ⟨n₀, result₀, hdone₀, hothers₀⟩ := exists_done
    ((hothers₂ 0 (by decide)).trans ((hothers₁ 0 (by decide)).trans h₀))
  let acts := List.replicate n₁ (Act.advance 1) ++ List.replicate n₂ (.advance 2) ++ List.replicate n₀ (.advance 0)
  obtain ⟨p, hp⟩ : ∃ p, p = (Pool.of e).after (trialActs ++ acts) := ⟨_, rfl⟩
  have hsplit : p = ((p₀.after (List.replicate n₁ (.advance 1))).after (List.replicate n₂ (.advance 2))).after
      (List.replicate n₀ (.advance 0)) := by
    rw [hp, hp₀, after_append, after_append, after_append]
  rw [← hsplit] at hdone₀ hothers₀
  obtain ⟨hlisted, -, hreceipt, herror, hread⟩ := interleaving trialTurns 10 e he hquiet (trialActs ++ acts) []
  rw [← hp] at hlisted hreceipt herror hread
  refine ⟨e, acts, he, ?_⟩
  rw [← hp]
  have hsync : p.threads[1]? = some ⟨.synchronize 10, .done result₁⟩ :=
    (hothers₀ 1 (by decide)).trans ((hothers₂ 1 (by decide)).trans hdone₁)
  have hreader : p.threads[2]? = some ⟨.read Block.trialChannel, .done result₂⟩ :=
    (hothers₀ 2 (by decide)).trans hdone₂
  refine ⟨⟨result₁, hsync⟩, (hlisted _).1, ?_, ?_⟩
  · cases result₀ with
    | ok receipt => exact ⟨receipt, hdone₀, (hreceipt _ _ _ _ _ hdone₀).2.1⟩
    | error error => cases (herror _ _ _ _ _ hdone₀).symm.trans (rfl : Task.checkTopics [Block.trialTopic] = .ok ())
  · obtain ⟨before, later, hacts, -, hresult⟩ := hread _ _ _ hreader
    exact ⟨result₂, before, later, hreader, hacts, hresult⟩

end Pool

end Invoicing
