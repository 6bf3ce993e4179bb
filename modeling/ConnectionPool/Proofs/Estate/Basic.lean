import ConnectionPool.Connection.Connector
import ConnectionPool.Proofs.Estate.Service
import ConnectionPool.Proofs.Trades
import Mathlib.Data.Multiset.Basic

/-!
# Estates

All that is held of an engine's connections and of the statements checked out of them. An estate
changes by a few kinds of moves, and one that starts out sound stays so: it holds each open
connection once, and the engine's counts tell how many there are. A connection that is shut leaves
no statement behind, and none that is closed is ever open again.
-/

namespace ConnectionPool

/-- The number of a statement and that of its connection. -/
def Statement.tag (s : Statement) : StatementId × ConnectionId := (s.id, s.owner)

def Statement.tags (l : List Statement) : Multiset (StatementId × ConnectionId) := ↑(l.map tag)

theorem Statement.mem_tags {t : StatementId × ConnectionId} {l : List Statement} :
    t ∈ tags l ↔ ∃ s ∈ l, s.tag = t := List.mem_map

/-- A raw connection is held like one whose cache keeps nothing. -/
def RawConnection.unwrapped (raw : RawConnection) : Connection := ⟨raw, {}, 0⟩

@[ext]
structure Estate where
  connections : Multiset Connection
  /-- The statements that are checked out. -/
  out : Multiset (StatementId × ConnectionId)
  engine : Engine

namespace Estate

variable {x y z : Estate} {C : Multiset Connection} {O O' : Multiset (StatementId × ConnectionId)}
  {e f : Engine} {c d : Connection}

/-- What can become of an estate at a time. A connection is shut only while every statement that is
checked out belongs to another one. -/
inductive Move : Estate → Estate → Prop
  | calm (C : Multiset Connection) (O : Multiset (StatementId × ConnectionId)) {e f : Engine} :
      e.Calm f → Move ⟨C, O, e⟩ ⟨C, O, f⟩
  | register (C : Multiset Connection) (O : Multiset (StatementId × ConnectionId)) {e f : Engine}
      {target : String} {mode : OpenMode} {raw : RawConnection} :
      e.connect target mode = (.ok raw, f) → Move ⟨C, O, e⟩ ⟨raw.unwrapped ::ₘ C, O, f⟩
  | serve (C : Multiset Connection) (O : Multiset (StatementId × ConnectionId)) {e f : Engine}
      {c d : Connection} {out back : List Statement} : c.Serves out e d back f →
      (∀ t ∈ out, t.owner = c.id) →
      Move ⟨c ::ₘ C, Statement.tags out + O, e⟩ ⟨d ::ₘ C, Statement.tags back + O, f⟩
  | closeRaw (C : Multiset Connection) (O : Multiset (StatementId × ConnectionId))
      (c : Connection) (e : Engine) :
      Move ⟨c ::ₘ C, O, e⟩ ⟨{ c with raw := (e.close c.raw).2.1 } ::ₘ C, O, (e.close c.raw).2.2⟩
  | shut (C : Multiset Connection) (O : Multiset (StatementId × ConnectionId)) (c : Connection)
      (e : Engine) : (∀ t ∈ O, ∃ d ∈ C, d.id = t.2) → Move ⟨c ::ₘ C, O, e⟩ ⟨C, O, c.destroy e⟩

def Moves : Estate → Estate → Prop := Relation.ReflTransGen Move

theorem Moves.refl (x : Estate) : Moves x x := Relation.ReflTransGen.refl

theorem Moves.trans (h : Moves x y) (h' : Moves y z) : Moves x z := Relation.ReflTransGen.trans h h'

theorem Move.moves (h : Move x y) : Moves x y := Relation.ReflTransGen.single h

structure Sound (x : Estate) : Prop where
  ids_nodup : (x.connections.map Connection.id).Nodup
  numbered : ∀ c ∈ x.connections, 0 < c.id.number ∧ c.id.number ≤ x.engine.lastConnection
  opened : x.engine.counters.opened = x.engine.lastConnection
  balance : x.engine.counters.closed + (x.connections.map fun c => c.isOpen.toNat).sum =
    x.engine.counters.opened
  closes : x.engine.faults.closes = 0
  own : ∀ c ∈ x.connections, ∀ t ∈ c.cache.statements, t.owner = c.id
  lent : ∀ t ∈ x.out, ∃ c ∈ x.connections, c.id = t.2

theorem Sound.calm (h : Sound ⟨C, O, e⟩) (hcalm : e.Calm f) : Sound ⟨C, O, f⟩ where
  ids_nodup := h.ids_nodup
  numbered c hc := hcalm.lastConnection ▸ h.numbered c hc
  opened := hcalm.opened.trans (h.opened.trans hcalm.lastConnection.symm)
  balance := by
    have hbalance := h.balance
    simp only [hcalm.closed, hcalm.opened] at hbalance ⊢
    exact hbalance
  closes := hcalm.closes.trans h.closes
  own := h.own
  lent := h.lent

theorem Sound.register {target : String} {mode : OpenMode} {raw : RawConnection}
    (h : Sound ⟨C, O, e⟩) (hc : e.connect target mode = (.ok raw, f)) :
    Sound ⟨raw.unwrapped ::ₘ C, O, f⟩ := by
  obtain ⟨hid, hopen, databases, rfl⟩ := Engine.connect_ok hc
  have hnew : raw.unwrapped.id = ⟨e.lastConnection + 1⟩ := hid
  refine ⟨?_, ?_, congrArg (· + 1) h.opened, ?_, h.closes, ?_, ?_⟩
  · rw [Multiset.map_cons, Multiset.nodup_cons, hnew]
    refine ⟨?_, h.ids_nodup⟩
    intro hmem
    obtain ⟨c, hc, heq⟩ := Multiset.mem_map.mp hmem
    have hle := (h.numbered c hc).2
    rw [heq] at hle
    exact absurd hle (Nat.not_succ_le_self _)
  · intro c hc
    cases Multiset.mem_cons.mp hc with
    | inl heq =>
      rw [heq, hnew]
      exact ⟨Nat.succ_pos _, Nat.le_refl _⟩
    | inr hmem => exact ⟨(h.numbered c hmem).1, Nat.le_succ_of_le (h.numbered c hmem).2⟩
  · have hone : raw.unwrapped.isOpen.toNat = 1 := congrArg Bool.toNat hopen
    have hbalance := h.balance
    simp only [Multiset.map_cons, Multiset.sum_cons, hone] at hbalance ⊢
    omega
  · intro c hc
    cases Multiset.mem_cons.mp hc with
    | inl heq =>
      subst heq
      exact fun t ht => nomatch ht
    | inr hmem => exact h.own c hmem
  · intro t ht
    obtain ⟨c, hc, heq⟩ := h.lent t ht
    exact ⟨c, Multiset.mem_cons_of_mem hc, heq⟩

/-- Another connection takes the place of one with its number, and is open unless the engine closes
it; statements that are checked out by then are of connections that are still there. -/
theorem Sound.exchange {n : Nat} (h : Sound ⟨c ::ₘ C, O, e⟩) (hid : d.id = c.id)
    (hopen : d.isOpen.toNat + n = c.isOpen.toNat) (hclosing : e.Closing n f)
    (hown : ∀ t ∈ d.cache.statements, t.owner = c.id)
    (hlent : ∀ t ∈ O', t.2 = c.id ∨ t ∈ O) : Sound ⟨d ::ₘ C, O', f⟩ := by
  have hnodup := h.ids_nodup
  have hnumbered := h.numbered
  have hbalance := h.balance
  simp only [Multiset.map_cons, Multiset.sum_cons] at hnodup hbalance
  simp only [Multiset.forall_mem_cons] at hnumbered
  refine ⟨?_, ?_, ?_, ?_, hclosing.closes.trans h.closes, ?_, ?_⟩
  · rw [Multiset.map_cons, hid]
    exact hnodup
  · simp only [Multiset.forall_mem_cons, hclosing.lastConnection, hid]
    exact hnumbered
  · exact hclosing.opened.trans (h.opened.trans hclosing.lastConnection.symm)
  · simp only [Multiset.map_cons, Multiset.sum_cons, hclosing.closed, hclosing.opened]
    omega
  · simp only [Multiset.forall_mem_cons, hid]
    exact ⟨hown, fun b hb => h.own b (Multiset.mem_cons_of_mem hb)⟩
  · intro t ht
    cases hlent t ht with
    | inl heq => exact ⟨d, Multiset.mem_cons_self d C, hid.trans heq.symm⟩
    | inr hold =>
      obtain ⟨b, hb, heq⟩ := h.lent t hold
      cases Multiset.mem_cons.mp hb with
      | inl hc => exact ⟨d, Multiset.mem_cons_self d C, hid.trans (hc ▸ heq)⟩
      | inr hmem => exact ⟨b, Multiset.mem_cons_of_mem hmem, heq⟩

theorem Sound.closing_destroy (h : Sound ⟨c ::ₘ C, O, e⟩) :
    e.Closing c.isOpen.toNat (c.destroy e) := by
  have hend := (e.calm_finalizeAll c.cache.statements).trans (c.closing_destroy h.closes)
  rwa [Nat.zero_add] at hend

theorem Sound.shut (h : Sound ⟨c ::ₘ C, O, e⟩) (hfree : ∀ t ∈ O, ∃ d ∈ C, d.id = t.2) :
    Sound ⟨C, O, c.destroy e⟩ := by
  have hclosing := h.closing_destroy
  have hnodup := h.ids_nodup
  have hbalance := h.balance
  simp only [Multiset.map_cons, Multiset.sum_cons, Multiset.nodup_cons] at hnodup hbalance
  refine ⟨hnodup.2, ?_, ?_, ?_, hclosing.closes.trans h.closes, ?_, hfree⟩
  · intro b hb
    rw [hclosing.lastConnection]
    exact h.numbered b (Multiset.mem_cons_of_mem hb)
  · exact hclosing.opened.trans (h.opened.trans hclosing.lastConnection.symm)
  · simp only [hclosing.closed, hclosing.opened]
    omega
  · exact fun b hb => h.own b (Multiset.mem_cons_of_mem hb)

theorem Sound.own_back {out back : List Statement} (h : Sound ⟨c ::ₘ C, O, e⟩)
    (hserves : c.Serves out e d back f) (hout : ∀ t ∈ out, t.owner = c.id) :
    ∀ t ∈ d.cache.statements ++ back, t.owner = c.id := by
  refine hserves.own fun t ht => ?_
  cases List.mem_append.mp ht with
  | inl hkept => exact h.own c (Multiset.mem_cons_self c C) t hkept
  | inr hmem => exact hout t hmem

theorem Sound.serve {out back : List Statement}
    (h : Sound ⟨c ::ₘ C, Statement.tags out + O, e⟩) (hserves : c.Serves out e d back f)
    (hout : ∀ t ∈ out, t.owner = c.id) : Sound ⟨d ::ₘ C, Statement.tags back + O, f⟩ := by
  have hback := h.own_back hserves hout
  refine h.exchange hserves.id (congrArg Bool.toNat hserves.isOpen) hserves.calm ?_ ?_
  · exact fun t ht => hback t (List.mem_append_left _ ht)
  · intro t ht
    cases Multiset.mem_add.mp ht with
    | inl hnew =>
      obtain ⟨s, hs, rfl⟩ := Statement.mem_tags.mp hnew
      exact .inl (hback s (List.mem_append_right _ hs))
    | inr hrest => exact .inr (Multiset.mem_add.mpr (.inr hrest))

theorem Sound.closeRaw (h : Sound ⟨c ::ₘ C, O, e⟩) :
    Sound ⟨{ c with raw := (e.close c.raw).2.1 } ::ₘ C, O, (e.close c.raw).2.2⟩ := by
  obtain ⟨hraw, hclosing⟩ := Engine.closing_close h.closes c.raw
  rw [hraw]
  exact h.exchange rfl (Nat.zero_add _) hclosing (h.own c (Multiset.mem_cons_self c C))
    fun t ht => .inr ht

theorem Sound.move (h : x.Sound) (hm : Move x y) : y.Sound := by
  cases hm with
  | calm C O hcalm => exact h.calm hcalm
  | register C O hc => exact h.register hc
  | serve C O hserves hout => exact h.serve hserves hout
  | closeRaw C O c e => exact h.closeRaw
  | shut C O c e hfree => exact h.shut hfree

theorem Sound.moves (h : x.Sound) (hm : Moves x y) : y.Sound := by
  induction hm with
  | refl => exact h
  | tail _ hlast ih => exact ih.move hlast

theorem Sound.eq_of_id (h : x.Sound) (hc : c ∈ x.connections) (hd : d ∈ x.connections)
    (hid : c.id = d.id) : c = d :=
  Multiset.inj_on_of_nodup_map h.ids_nodup c hc d hd hid

/-- Whether a statement is kept for a connection or checked out of it. -/
def Holds (x : Estate) (owner : ConnectionId) (id : StatementId) : Prop :=
  (id, owner) ∈ x.out ∨ ∃ c ∈ x.connections, c.id = owner ∧ id ∈ c.cache.ids

/-- What no move undoes: numbers that were given out, statements that are finalized, and
connections that are closed. A statement that is held stays so until it is finalized. -/
structure Leads (x y : Estate) : Prop where
  finalized : x.engine.finalized ⊆ y.engine.finalized
  lastConnection : x.engine.lastConnection ≤ y.engine.lastConnection
  opened : ∀ d ∈ y.connections, d.isOpen = true → d.id.number ≤ x.engine.lastConnection →
    ∃ c ∈ x.connections, c.id = d.id ∧ c.isOpen = true
  holds : ∀ owner id, x.Holds owner id → y.Holds owner id ∨ id ∈ y.engine.finalized

theorem Leads.refl (x : Estate) : Leads x x where
  finalized := List.Subset.refl _
  lastConnection := Nat.le_refl _
  opened d hd hopen _ := ⟨d, hd, rfl, hopen⟩
  holds _ _ h := .inl h

theorem Leads.trans (h : Leads x y) (h' : Leads y z) : Leads x z where
  finalized := List.Subset.trans h.finalized h'.finalized
  lastConnection := h.lastConnection.trans h'.lastConnection
  opened d hd hopen hle := by
    obtain ⟨c, hc, hid, hcopen⟩ := h'.opened d hd hopen (hle.trans h.lastConnection)
    obtain ⟨b, hb, hbid, hbopen⟩ := h.opened c hc hcopen (hid ▸ hle)
    exact ⟨b, hb, hbid.trans hid, hbopen⟩
  holds owner id hx := by
    cases h.holds owner id hx with
    | inl hy => exact h'.holds owner id hy
    | inr hfinal => exact .inr (h'.finalized hfinal)

theorem leads_register {target : String} {mode : OpenMode} {raw : RawConnection}
    (hc : e.connect target mode = (.ok raw, f)) :
    Leads ⟨C, O, e⟩ ⟨raw.unwrapped ::ₘ C, O, f⟩ := by
  obtain ⟨hid, -, databases, rfl⟩ := Engine.connect_ok hc
  refine ⟨List.Subset.refl _, Nat.le_succ _, ?_, ?_⟩
  · intro d hd hopen hle
    cases Multiset.mem_cons.mp hd with
    | inl heq =>
      have hnew : d.id.number = e.lastConnection + 1 := by
        rw [heq]
        exact congrArg ConnectionId.number hid
      exact absurd (hnew ▸ hle) (Nat.not_succ_le_self _)
    | inr hmem => exact ⟨d, hmem, rfl, hopen⟩
  · rintro owner id (hout | ⟨c, hc, hkept⟩)
    · exact .inl (.inl hout)
    · exact .inl (.inr ⟨c, Multiset.mem_cons_of_mem hc, hkept⟩)

theorem leads_exchange {n : Nat} (hid : d.id = c.id) (hopen : d.isOpen = true → c.isOpen = true)
    (hclosing : e.Closing n f)
    (hout : ∀ t ∈ O, t ∈ O' ∨ t.2 = c.id ∧ t.1 ∈ d.cache.ids ∨ t.1 ∈ f.finalized)
    (hkept : ∀ id ∈ c.cache.ids, id ∈ d.cache.ids ∨ (id, c.id) ∈ O' ∨ id ∈ f.finalized) :
    Leads ⟨c ::ₘ C, O, e⟩ ⟨d ::ₘ C, O', f⟩ := by
  refine ⟨hclosing.finalized, hclosing.lastConnection.ge, ?_, ?_⟩
  · intro b hb hbopen _
    cases Multiset.mem_cons.mp hb with
    | inl heq =>
      subst heq
      exact ⟨c, Multiset.mem_cons_self c C, hid.symm, hopen hbopen⟩
    | inr hmem => exact ⟨b, Multiset.mem_cons_of_mem hmem, rfl, hbopen⟩
  · rintro owner id (ht | ⟨b, hb, rfl, hmem⟩)
    · obtain hstill | ⟨heq, hin⟩ | hfinal := hout _ ht
      · exact .inl (.inl hstill)
      · exact .inl (.inr ⟨d, Multiset.mem_cons_self d C, hid.trans heq.symm, hin⟩)
      · exact .inr hfinal
    · cases Multiset.mem_cons.mp hb with
      | inl heq =>
        subst heq
        obtain hin | hlent | hfinal := hkept id hmem
        · exact .inl (.inr ⟨d, Multiset.mem_cons_self d C, hid, hin⟩)
        · exact .inl (.inl hlent)
        · exact .inr hfinal
      | inr hrest => exact .inl (.inr ⟨b, Multiset.mem_cons_of_mem hrest, rfl, hmem⟩)

theorem leads_serve {out back : List Statement}
    (h : Sound ⟨c ::ₘ C, Statement.tags out + O, e⟩) (hserves : c.Serves out e d back f)
    (hout : ∀ t ∈ out, t.owner = c.id) :
    Leads ⟨c ::ₘ C, Statement.tags out + O, e⟩ ⟨d ::ₘ C, Statement.tags back + O, f⟩ := by
  have hown := h.own_back hserves hout
  have hback (id : StatementId) (hid : id ∈ back.map Statement.id) :
      (id, c.id) ∈ Statement.tags back + O := by
    obtain ⟨s, hs, rfl⟩ := List.mem_map.mp hid
    rw [← hown s (List.mem_append_right _ hs)]
    exact Multiset.mem_add.mpr (.inl (Statement.mem_tags.mpr ⟨s, hs, rfl⟩))
  refine leads_exchange hserves.id (fun hopen => hserves.isOpen ▸ hopen) hserves.calm ?_ ?_
  · intro t ht
    cases Multiset.mem_add.mp ht with
    | inr hrest => exact .inl (Multiset.mem_add.mpr (.inr hrest))
    | inl hmem =>
      obtain ⟨s, hs, rfl⟩ := Statement.mem_tags.mp hmem
      have howner : s.owner = c.id := hout s hs
      obtain hkept | hcalled | hfinal := hserves.accounts (.inr (.inl (List.mem_map_of_mem hs)))
      · exact .inr (.inl ⟨howner, hkept⟩)
      · rw [Statement.tag, howner]
        exact .inl (hback s.id hcalled)
      · exact .inr (.inr hfinal)
  · intro id hid
    obtain hkept | hcalled | hfinal := hserves.accounts (.inl hid)
    · exact .inl hkept
    · exact .inr (.inl (hback id hcalled))
    · exact .inr (.inr hfinal)

/-- What a connection kept is finalized by the time it is shut. -/
theorem leads_shut (h : Sound ⟨c ::ₘ C, O, e⟩) : Leads ⟨c ::ₘ C, O, e⟩ ⟨C, O, c.destroy e⟩ := by
  have hclosing := h.closing_destroy
  refine ⟨hclosing.finalized, hclosing.lastConnection.ge, ?_, ?_⟩
  · exact fun b hb hopen _ => ⟨b, Multiset.mem_cons_of_mem hb, rfl, hopen⟩
  · rintro owner id (ht | ⟨b, hb, rfl, hmem⟩)
    · exact .inl (.inl ht)
    · cases Multiset.mem_cons.mp hb with
      | inl heq =>
        subst heq
        exact .inr ((b.closing_destroy h.closes).finalized (b.mem_clearCache e hmem))
      | inr hrest => exact .inl (.inr ⟨b, hrest, rfl, hmem⟩)

theorem Sound.leads_move (h : x.Sound) (hm : Move x y) : x.Leads y := by
  cases hm with
  | calm C O hcalm =>
    exact ⟨hcalm.finalized, hcalm.lastConnection.ge, fun d hd hopen _ => ⟨d, hd, rfl, hopen⟩,
      fun _ _ hx => .inl hx⟩
  | register C O hc => exact leads_register hc
  | serve C O hserves hout => exact leads_serve h hserves hout
  | closeRaw C O c e =>
    obtain ⟨hraw, hclosing⟩ := Engine.closing_close h.closes c.raw
    rw [hraw]
    exact leads_exchange rfl nofun hclosing (fun t ht => .inl ht) fun id hid => .inl hid
  | shut C O c e => exact leads_shut h

theorem Sound.leads (h : x.Sound) (hm : Moves x y) : x.Leads y := by
  induction hm with
  | refl => exact .refl x
  | tail hfirst hlast ih => exact ih.trans ((h.moves hfirst).leads_move hlast)

theorem serves_ofRaw {raw : RawConnection} {settings : CacheSettings}
    (h : Connection.ofRaw? raw settings = some c) (e : Engine) :
    raw.unwrapped.Serves [] e c [] e := by
  have hempty := Connection.charge_ofRaw h
  obtain ⟨cache, hcache, rfl⟩ := Option.map_eq_some_iff.mp h
  have hentries : cache.entries = [] := by
    unfold StatementCache.ofSettings? at hcache
    split at hcache
    · cases hcache
      rfl
    · cases hcache
  refine ⟨rfl, rfl, .refl e, ?_, ?_⟩
  · intro _ t ht
    simp only [StatementCache.statements, hentries] at ht
    cases ht
  · rw [hempty]
    rfl

/-- Where there can be room for its cache, a connection that is opened is held by somebody. -/
theorem moves_connect {target : String} {settings : ConnectionSettings}
    {attempt : Attempt ConnectionError Connection} (hfits : settings.statementCache.fits = true)
    (h : Connection.connect e target settings = (attempt, f)) :
    Moves ⟨C, O, e⟩ ⟨attempt.made + C, O, f⟩ := by
  unfold Connection.connect at h
  cases hc : e.connect target settings.openMode with
  | mk result g =>
    rw [hc] at h
    cases result with
    | error error =>
      cases h
      simp only [Attempt.made, zero_add]
      exact (Move.calm C O (Engine.connect_error hc)).moves
    | ok raw =>
      have hroom : ∃ c, Connection.ofRaw? raw settings.statementCache = some c := by
        simp [Connection.ofRaw?, StatementCache.ofSettings?, hfits]
      obtain ⟨c, hraw⟩ := hroom
      simp only [hraw] at h
      cases h
      have hserve := Move.serve C O (serves_ofRaw hraw f) (List.forall_mem_nil _)
      rw [show Statement.tags [] = 0 from rfl, zero_add] at hserve
      exact (Move.register C O hc).moves.trans hserve.moves

theorem moves_trades {target : String} {settings : ConnectionSettings} {S T : Multiset Connection}
    (hfits : settings.statementCache.fits = true)
    (h : (Connector.toTarget target settings).Trades (S, e) (T, f))
    (hlent : ∀ t ∈ O, ∃ d ∈ C, d.id = t.2) : Moves ⟨S + C, O, e⟩ ⟨T + C, O, f⟩ := by
  have hall {x y : Multiset Connection × Engine}
      (h : (Connector.toTarget target settings).Trades x y) :
      Moves ⟨x.1 + C, O, x.2⟩ ⟨y.1 + C, O, y.2⟩ := by
    induction h with
    | refl => exact .refl _
    | tail _ hlast ih =>
      refine ih.trans ?_
      cases hlast with
      | connect held g =>
        rw [add_assoc]
        cases hc : Connection.connect g target settings with
        | mk attempt g' =>
          have hmoves := moves_connect (C := held + C) (O := O) hfits hc
          have hmade : ((Connector.toTarget target settings).connect g).1.made = attempt.made ∧
              ((Connector.toTarget target settings).connect g).2 = g' := by
            rw [Connector.toTarget]
            simp only [hc]
            cases attempt <;> exact ⟨rfl, trivial⟩
          rw [hmade.1, hmade.2]
          exact hmoves
      | destroy c held g =>
        rw [Multiset.cons_add]
        refine (Move.shut (held + C) O c g ?_).moves
        intro t ht
        obtain ⟨d, hd, hid⟩ := hlent t ht
        exact ⟨d, Multiset.mem_add.mpr (.inr hd), hid⟩
  exact hall h

end Estate

end ConnectionPool
