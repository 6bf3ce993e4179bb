import ConnectionPool.Proofs.Script.Offers

/-!
# Hits

A statement that a script gets out of the cache was prepared for the same text earlier in that
script, and the schema has not been changed since. It is in nobody else's hands and as good as new.
-/

namespace ConnectionPool.Script

variable {d : Desk} {sql q : String} {id : StatementId} {t : Terms}

/-- The actions of a script, each with the desk on which it begins. -/
def history : Desk → List Action → List (Desk × Action)
  | _, [] => []
  | d, a :: script => (d, a) :: history (d.act a) script

/-- Whether a statement was prepared anew for a text at some time past, by whoever asked for that
text, and the schema was not changed afterwards. -/
def PreparedFor (past : List (Desk × Action)) (sql : String) (id : StatementId) : Prop :=
  ∃ before d a after, past = before ++ (d, a) :: after ∧ a.asks? = some sql ∧ d.Prepares sql id ∧
    ∀ m ∈ after, m.2.changesSchema = false

/-- The desk that a script leaves. -/
def final (d : Desk) (script : List Action) : Desk := (run d script).2

theorem final_cons (d : Desk) (a : Action) (script : List Action) :
    final d (a :: script) = final (d.act a) script := by
  cases a <;> rfl

theorem final_keeps {P : Desk → Prop} (hact : ∀ d a, P d → P (d.act a)) (h : P d)
    (script : List Action) : P (final d script) := by
  induction script generalizing d with
  | nil => exact h
  | cons a script ih =>
    rw [final_cons]
    exact ih (hact d a h)

theorem final_tidy (ht : d.Tidy) (script : List Action) : (final d script).Tidy :=
  final_keeps (P := Desk.Tidy) (fun _ a hd => (Desk.act_keeps hd a).1) ht script

theorem final_sound (hs : d.Sound t) (script : List Action) : (final d script).Sound t := by
  apply final_keeps (P := Desk.Sound t) _ hs
  intro d a hd
  cases a with
  | operation o => exact hd.perform o
  | upkeep u => exact hd.tend u

theorem Desk.Orderly.act (ho : d.Orderly) (a : Action) : (d.act a).Orderly := by
  have hcharge : (d.act a).charge = d.charge := by
    cases a with
    | operation o => exact d.charge_perform o
    | upkeep u => exact d.charge_tend u
  rw [Desk.orderly_iff, hcharge]
  exact Desk.orderly_iff.mp ho

theorem final_orderly (ho : d.Orderly) (script : List Action) : (final d script).Orderly :=
  final_keeps (fun _ a hd => hd.act a) ho script

/-- What a script leaves on offer was so from the start and throughout, or it was prepared on the
way. -/
theorem offers_final (ht : d.Tidy) (script : List Action) (ho : (final d script).Offers q id) :
    (d.Offers q id ∧ ∀ m ∈ history d script, m.2.changesSchema = false) ∨
      PreparedFor (history d script) q id := by
  induction script generalizing d with
  | nil => exact .inl ⟨ho, List.forall_mem_nil _⟩
  | cons a script ih =>
    obtain ⟨htidy, htraced⟩ := Desk.act_keeps ht a
    rw [final_cons] at ho
    obtain ⟨hoffers, hrest⟩ | hprepared := ih htidy ho
    · obtain ⟨hold, ha⟩ | ⟨hasks, hnew⟩ := htraced q id hoffers
      · exact .inl ⟨hold, List.forall_mem_cons.mpr ⟨ha, hrest⟩⟩
      · exact .inr ⟨[], d, a, history (d.act a) script, rfl, hasks, hnew, hrest⟩
    · obtain ⟨before, d', a', after, hpast, hrest⟩ := hprepared
      refine .inr ⟨(d, a) :: before, d', a', after, ?_, hrest⟩
      rw [history, hpast, List.cons_append]

variable {c : Connection} {e : Engine} {raw : RawConnection} {settings : CacheSettings}

theorem entries_of_ofRaw (hc : Connection.ofRaw? raw settings = some c) : c.cache.entries = [] := by
  obtain ⟨cache, hcache, rfl⟩ := Option.map_eq_some_iff.mp hc
  unfold StatementCache.ofSettings? at hcache
  split at hcache
  · cases hcache
    rfl
  · cases hcache

theorem clean_tidy (hc : c.cache.entries = []) (e : Engine) : (Desk.clean c e).Tidy := by
  have hkept : ∀ x ∈ c.cache.entries, Sql.changesSchema x.1 = false := hc ▸ List.forall_mem_nil _
  exact ⟨hkept, List.forall_mem_nil _, List.forall_mem_nil _⟩

theorem clean_sound (hc : c.cache.entries = []) (e : Engine) :
    (Desk.clean c e).Sound (c.terms e) := by
  have hkept : ∀ x ∈ c.cache.entries, (c.terms e).Genuine x.1 x.2 := hc ▸ List.forall_mem_nil _
  exact ⟨⟨rfl, hkept⟩, List.forall_mem_nil _⟩

theorem not_offers_clean (hc : c.cache.entries = []) : ¬ (Desk.clean c e).Offers q id := by
  rintro ⟨-, ⟨s, hs, -⟩ | ⟨k, hk, -⟩⟩
  · have hin : (q, s) ∈ c.cache.entries := hs
    rw [hc] at hin
    cases hin
  · cases hk

theorem Desk.Orderly.not_mem_ids (ho : d.Orderly) (hnew : d.engine.lastStatement < id.number) :
    id ∉ d.connection.cache.ids := by
  intro hin
  have hcount := List.one_le_count_iff.mpr hin
  have hid := ho id
  have hissued : d.engine.issued id = 0 := if_neg (by omega)
  rw [Desk.ids, List.count_append] at hid
  omega

/-- Only a hit gives out a statement of the cache. -/
theorem Desk.Orderly.hit {k : Checkout} {f : Engine} {c : Connection} (ho : d.Orderly)
    (hk : d.connection.Prepares sql d.engine k c f)
    (hin : k.statement.id ∈ d.connection.cache.ids) :
    (d.connection.cache.acquire d.connection.id sql).found = some k.statement := by
  -- A statement prepared anew gets a number beyond all those given out, a cached one has been
  -- given out before.
  have hold : ¬ d.engine.lastStatement < k.statement.id.number := by
    intro hnew
    exact ho.not_mem_ids hnew hin
  cases hk with
  | hit hplain hfound => exact hfound
  | change => simp [Engine.statementFor] at hold
  | fresh hplain hfound hg =>
    rw [hg] at hold
    simp [Engine.statementFor] at hold

theorem Desk.Orderly.alone {k : Checkout} {f : Engine} {c : Connection} {held : List Checkout}
    (ho : Desk.Orderly ⟨c, f, held ++ [k]⟩) :
    k.statement.id ∉ f.finalized ∧ k.statement.id ∉ c.cache.ids ∧
      ∀ l ∈ held, l.statement.id ≠ k.statement.id := by
  have hid := ho k.statement.id
  have hissued : f.issued k.statement.id ≤ 1 := by
    rw [Engine.issued]
    split <;> omega
  simp only [Desk.ids, List.map_append, List.map_cons, List.map_nil, List.count_append,
    List.count_singleton_self] at hid
  refine ⟨?_, ?_, ?_⟩
  · rw [← List.count_eq_zero]
    omega
  · rw [← List.count_eq_zero]
    omega
  · intro l hl hsame
    have hmem : k.statement.id ∈ held.map fun k => k.statement.id :=
      List.mem_map.mpr ⟨l, hl, hsame⟩
    have hcount := List.one_le_count_iff.mpr hmem
    omega

/-- What may be relied on when a desk gets a statement `k` for a text, which leaves its connection
as `c` and its engine as `f`. -/
structure SoundHit (past : List (Desk × Action)) (d : Desk) (sql : String) (k : Checkout)
    (c : Connection) (f : Engine) : Prop where
  isOpen : d.connection.isOpen = true
  owner : k.statement.owner = d.connection.id
  text : k.statement.sql = sql
  prepared : PreparedFor past sql k.statement.id
  live : k.statement.id ∉ f.finalized
  removed : k.statement.id ∉ c.cache.ids
  exclusive : ∀ l ∈ d.held, l.statement.id ≠ k.statement.id
  fresh : k.statement.IsFresh

theorem SoundHit.of_final {k : Checkout} {f : Engine} {c' : Connection} (hc : c.cache.entries = [])
    (he : (Desk.clean c e).Orderly) (script : List Action) (hd : d = final (.clean c e) script)
    (hp : d.connection.prepare sql d.engine = (.ok k, c', f))
    (hin : k.statement.id ∈ d.connection.cache.ids) :
    SoundHit (history (.clean c e) script) d sql k c' f := by
  have hsound : d.Sound (c.terms e) := hd ▸ final_sound (clean_sound hc e) script
  have horder : d.Orderly := hd ▸ final_orderly he script
  obtain ⟨hopen, hk⟩ := Connection.prepare_ok hp
  have hfound := horder.hit hk hin
  obtain ⟨s, hs, hrewound⟩ := StatementCache.found_mem hfound
  have hoffers : d.Offers sql k.statement.id := by
    refine ⟨hopen, .inl ⟨s, hs, ?_⟩⟩
    rw [hrewound]
    rfl
  have hgenuine : k.statement.unnumbered = (c.terms e).issue sql := by
    rw [hrewound]
    exact (hsound.connection.kept _ hs).rewound
  -- The desk that goes on with the statement has it in one place, which is the caller's hands.
  have hafter : (d.prepare sql).2 = ⟨c', f, d.held ++ [k]⟩ := by
    rw [Desk.prepare, hp]
  have hout : Desk.Orderly ⟨c', f, d.held ++ [k]⟩ :=
    hafter ▸ horder.act (.operation (.prepare sql))
  obtain ⟨hlive, hremoved, hexclusive⟩ := hout.alone
  refine ⟨hopen, ?_, ?_, ?_, hlive, hremoved, hexclusive, ?_⟩
  · have howner : k.statement.owner = (c.terms e).owner := congrArg Statement.owner hgenuine
    rw [howner, ← hsound.connection.terms]
    rfl
  · exact congrArg Statement.sql hgenuine
  · obtain ⟨hold, -⟩ | hprepared := offers_final (clean_tidy hc e) script (hd ▸ hoffers)
    · exact absurd hold (not_offers_clean hc)
    · exact hprepared
  · rw [hrewound]
    exact s.rewind_isFresh

/-- On a connection whose cache nobody else reaches, no text that changes the schema is ever kept,
and whatever comes out of the cache was prepared for the same text since the last change. -/
theorem hits_sound (hc : Connection.ofRaw? raw settings = some c) (he : (Desk.clean c e).Orderly)
    (script : List Action) (hd : d = final (.clean c e) script) :
    (∀ x ∈ d.connection.cache.entries, Sql.changesSchema x.2.sql = false) ∧
      ∀ sql k c' f, d.connection.prepare sql d.engine = (.ok k, c', f) →
        k.statement.id ∈ d.connection.cache.ids →
        SoundHit (history (.clean c e) script) d sql k c' f := by
  have hempty := entries_of_ofRaw hc
  have htidy : d.Tidy := hd ▸ final_tidy (clean_tidy hempty e) script
  have hsound : d.Sound (c.terms e) := hd ▸ final_sound (clean_sound hempty e) script
  constructor
  · intro x hx
    have htext : x.2.sql = x.1 := congrArg Statement.sql (hsound.connection.kept x hx).rewound
    rw [htext]
    exact htidy.kept x hx
  · intro sql k c' f hp hin
    exact .of_final hempty he script hd hp hin

/-- A statement bound and run after a schema change, given back and asked for again. -/
theorem hits_sound_reissued :
    let c : Connection := ⟨⟨⟨1⟩, true, false, none⟩, { settings := {} }, 0⟩
    let script : List Action := [.operation (.execute "CREATE TABLE t (a)"),
      .operation (.prepare "SELECT ?"), .operation (.bind 0 "x"), .operation (.step 0),
      .operation (.drop 0)]
    let d := final (.clean c {}) script
    ∃ k c' f, d.connection.prepare "SELECT ?" d.engine = (.ok k, c', f) ∧
      k.statement.id ∈ d.connection.cache.ids ∧
      SoundHit (history (.clean c {}) script) d "SELECT ?" k c' f := by
  intro c script d
  have hc : Connection.ofRaw? ⟨⟨1⟩, true, false, none⟩ {} = some c := rfl
  have he : (Desk.clean c {}).Orderly := fun id => Nat.zero_le _
  have hok : (d.connection.prepare "SELECT ?" d.engine).1.isOk = true := by decide +kernel
  cases hp : d.connection.prepare "SELECT ?" d.engine with
  | mk result after =>
    cases result with
    | error error =>
      rw [hp] at hok
      cases hok
    | ok k =>
      have hin : (d.connection.prepare "SELECT ?" d.engine).1.toOption.all (fun k =>
          d.connection.cache.ids.contains k.statement.id) = true := by decide +kernel
      rw [hp] at hin
      have hin : k.statement.id ∈ d.connection.cache.ids := by
        simpa [Except.toOption] using hin
      exact ⟨k, after.1, after.2, rfl, hin, (hits_sound hc he script rfl).2 _ _ _ _ hp hin⟩

end ConnectionPool.Script
