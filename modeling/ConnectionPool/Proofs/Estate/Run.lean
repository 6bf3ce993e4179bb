import ConnectionPool.Proofs.Estate.PoolSteps

/-!
# Careful runs

With care, every step leaves a session settled, also one that waits while others are carried out. In
the end all objects can be dropped, statements before the connections they were prepared on.
-/

namespace ConnectionPool.Session

variable {b : Estate} {s t u : Session} {name : String} {l l' : List String}

mutual

/-- Whether a step is one of a careful session: no failure to close is asked for, there can be room
for every cache, a raw connection is closed or wrapped before it goes, and the cache of a
connection is left to that. While callers wait, the session is as careful. -/
def Allows (s : Session) : Step → Prop
  | .failCloses n => n = 0
  | .takeCached cache .. => s.connection? cache = none
  | .storeCached cache .. => s.connection? cache = none
  | .clearCached cache => s.connection? cache = none
  | .reconfigureCached cache _ => s.connection? cache = none
  | .connect _ _ settings => settings.statementCache.fits = true
  | .wrap _ _ settings => settings.fits = true
  | .buildPool _ _ _ _ connections => connections.statementCache.fits = true
  | .drop name => ∀ raw, s.object? name = some (.raw raw) → raw.isOpen = false
  | .wait pool names manner meanwhile =>
    ¬ names.any s.inUse = true → ∀ found, s.poolNamed? pool = some found →
      (s.await found.1).AllowsAll meanwhile ∧
        ((s.await found.1).performAll meanwhile).2.YieldsTo found.1 s.now manner names
  | _ => True

def AllowsAll (s : Session) : List Step → Prop
  | [] => True
  | step :: steps => s.Allows step ∧ (s.perform step).2.AllowsAll steps

end

namespace Settled

theorem describe (h : s.Settled b 0) (name : String) : (s.describe name).2.Settled b 0 := by
  unfold Session.describe
  cases s.description? name <;> exact h

theorem setFaults (h : s.Settled b 0) (change : Faults → Faults)
    (hcloses : (change s.engine.faults).closes = s.engine.faults.closes) :
    (s.setFaults change).2.Settled b 0 :=
  h.calm ⟨rfl, rfl, rfl, hcloses, List.Subset.refl _, Nat.le_refl _⟩

mutual

theorem perform {s : Session} (h : s.Settled b 0) (step : Step) (hcare : s.Allows step) :
    (s.perform step).2.Settled b 0 := by
  cases step with
  | failOpens n | failSteps n | grantRows n =>
    rw [Session.perform]
    exact h.setFaults _ rfl
  | failCloses n =>
    rw [Allows] at hcare
    rw [Session.perform]
    refine h.setFaults _ ?_
    have hcloses : s.engine.faults.closes = 0 := h.sound.closes
    rw [hcare, hcloses]
  | createDatabase target =>
    rw [Session.perform]
    exact h.calm ⟨rfl, rfl, rfl, rfl, List.Subset.refl _, Nat.le_refl _⟩
  | delay | isFinalized id | malformed =>
    rw [Session.perform]
    exact h
  | pass nanos =>
    rw [Session.perform]
    exact h.pass nanos
  | openRaw name target mode =>
    rw [Session.perform]
    exact h.openRaw name target mode
  | prepareRaw raw name sql =>
    rw [Session.perform]
    exact h.prepareRaw raw name sql
  | closeRaw raw =>
    rw [Session.perform]
    exact h.closeRaw raw
  | advance statement =>
    rw [Session.perform]
    exact h.advance statement
  | bind statement value | reset statement | clearBindings statement | rewind statement =>
    rw [Session.perform]
    exact h.changeStatement statement fun _ => rfl
  | finalize statement =>
    rw [Session.perform]
    exact h.finalize statement
  | newCache name settings =>
    rw [Session.perform]
    exact h.newCache name settings
  | takeCached cache name sql owner =>
    rw [Allows] at hcare
    rw [Session.perform]
    exact h.takeCached cache name sql owner hcare
  | storeCached cache sql statement =>
    rw [Allows] at hcare
    rw [Session.perform]
    exact h.storeCached cache sql statement hcare
  | clearCached cache =>
    rw [Allows] at hcare
    rw [Session.perform]
    exact h.clearCached cache hcare
  | reconfigureCached cache settings =>
    rw [Allows] at hcare
    rw [Session.perform]
    exact h.reconfigureCached cache settings hcare
  | isCached cache sql =>
    rw [Session.perform, Session.isCached]
    cases s.cache? cache <;> exact h
  | connect name target settings =>
    rw [Allows] at hcare
    rw [Session.perform]
    exact h.connect name target settings hcare
  | wrap raw name settings =>
    rw [Allows] at hcare
    rw [Session.perform]
    exact h.wrap raw name settings hcare
  | prepare connection name sql =>
    rw [Session.perform]
    exact h.prepare connection name sql
  | execute connection sql =>
    rw [Session.perform]
    exact h.execute connection sql
  | configure connection settings =>
    rw [Session.perform]
    exact h.configure connection settings
  | clearCache connection =>
    rw [Session.perform]
    exact h.clearCache connection
  | close connection =>
    rw [Session.perform]
    exact h.close connection
  | buildPool name settings script target connections =>
    rw [Allows] at hcare
    rw [Session.perform]
    exact h.buildPool name settings script target connections hcare
  | acquire pool name manner =>
    rw [Session.perform]
    exact h.acquire pool name manner
  | tryAcquire pool name =>
    rw [Session.perform]
    exact h.tryAcquire pool name
  | closePool pool =>
    rw [Session.perform]
    exact h.closePool pool
  | clonePool pool name =>
    rw [Session.perform]
    exact h.clonePool pool name
  | poolSettings pool =>
    rw [Session.perform, Session.poolSettings]
    cases s.poolNamed? pool <;> exact h
  | wait pool names manner meanwhile =>
    rw [Allows] at hcare
    rw [Session.perform]
    split
    · exact h
    · rename_i hfree
      cases hp : s.poolNamed? pool with
      | none => exact h
      | some found =>
        obtain ⟨hmeanwhile, hnames⟩ := hcare hfree found hp
        have hdone := (h.await found.1).performAll meanwhile hmeanwhile
        exact (hdone.answerCallers found.1 s.now manner names hnames).unawait found.1
  | cancel pool handle =>
    rw [Session.perform]
    exact h.cancel pool handle
  | share lease name =>
    rw [Session.perform]
    exact h.share lease name
  | cloneShared shared name =>
    rw [Session.perform]
    exact h.cloneShared shared name
  | intoShared lease name =>
    rw [Session.perform]
    exact h.intoShared lease name
  | exclusive lease =>
    rw [Session.perform]
    exact h.exclusive lease
  | detach lease name =>
    rw [Session.perform]
    exact h.detach lease name
  | drop name =>
    rw [Allows] at hcare
    rw [Session.perform]
    exact h.drop hcare
  | describe name =>
    rw [Session.perform]
    exact h.describe name

theorem performAll {s : Session} (h : s.Settled b 0) (steps : List Step)
    (hcare : s.AllowsAll steps) : (s.performAll steps).2.Settled b 0 := by
  cases steps with
  | nil =>
    rw [Session.performAll]
    exact h
  | cons step steps =>
    rw [AllowsAll] at hcare
    rw [Session.performAll]
    exact (h.perform step hcare.1).performAll steps hcare.2

end

end Settled

/-- What dropping names leaves of the objects of a session. -/
structure Shrinks (l : List String) (s t : Session) : Prop where
  gone : ∀ x ∈ t.objects, x.1 ∉ l
  left : ∀ x ∈ t.objects, x ∈ s.objects ∨
    ∃ c d, x.2 = .connection d ∧ (x.1, .connection c) ∈ s.objects

theorem Shrinks.trans (h : s.Shrinks l t) (h' : t.Shrinks l' u) : s.Shrinks (l ++ l') u where
  gone x hx hmem := by
    cases List.mem_append.mp hmem with
    | inr hnew => exact h'.gone x hx hnew
    | inl hold =>
      obtain hx' | ⟨c, d, -, hc⟩ := h'.left x hx
      · exact h.gone x hx' hold
      · exact h.gone _ hc hold
  left x hx := by
    obtain hx' | ⟨c, d, hd, hc⟩ := h'.left x hx
    · exact h.left x hx'
    · obtain hc' | ⟨c', d', -, hc'⟩ := h.left _ hc
      · exact .inr ⟨c, d, hd, hc'⟩
      · exact .inr ⟨c', d, hd, hc'⟩

theorem Shrinks.mem_population {o : Object} (h : s.Shrinks l t) (hno : ∀ c, o ≠ .connection c)
    (ho : o ∈ t.population) : o ∈ s.population := by
  obtain ⟨name, hx⟩ := Session.mem_population.mp ho
  obtain hx' | ⟨c, d, hd, -⟩ := h.left _ hx
  · exact Session.mem_population.mpr ⟨name, hx'⟩
  · exact absurd hd (hno d)

theorem mem_objects_setConnection {x : String × Object} {d : Connection}
    (hx : x ∈ (s.setConnection name d).objects) :
    x ∈ s.objects ∨ x = (name, .connection d) ∧ ∃ c, (name, .connection c) ∈ s.objects := by
  have hleased (n id : Nat) : (s.setLeased n id d).objects = s.objects := by
    rw [setLeased]
    cases s.pool? n <;> rfl
  unfold setConnection at hx
  split at hx
  · rename_i c ho
    cases Table.mem_put hx with
    | inl heq => exact .inr ⟨heq, c, Table.mem_of_lookup ho⟩
    | inr hmem => exact .inl hmem
  · exact .inl (hleased .. ▸ hx)
  · exact .inl (hleased .. ▸ hx)
  · exact .inl hx

theorem objects_discard {o : Object} (hno : ∀ k source, o ≠ .statement k source) :
    (s.discard o).objects = s.objects := by
  have hdrop (n id : Nat) : (s.dropHandle n id).objects = s.objects := by
    rw [dropHandle]
    cases s.pool? n with
    | none => rfl
    | some p => exact objects_sweepPool _ n
  cases o with
  | statement k source => exact absurd rfl (hno k source)
  | pool n => exact objects_sweepPool s n
  | lease n id => exact hdrop n id
  | shared n id => exact hdrop n id
  | _ => rfl

theorem shrinks_dropNamed (hnames : (s.objects.map Prod.fst).Nodup) (name : String) :
    s.Shrinks [name] (s.dropNamed name) := by
  have hremove : s.Shrinks [name] (s.remove name) :=
    ⟨fun x hx hmem => Table.ne_of_mem_erase hnames hx (List.mem_singleton.mp hmem),
      fun x hx => .inl (List.mem_of_mem_eraseP hx)⟩
  unfold dropNamed
  cases ho : s.object? name with
  | none =>
    refine ⟨fun x hx hmem => ?_, fun x hx => .inl hx⟩
    have hmiss := bne_iff_ne.mp (List.lookup_eq_none_iff.mp ho x hx)
    exact hmiss (List.mem_singleton.mp hmem).symm
  | some o =>
    by_cases hstatement : ∃ k source, o = .statement k source
    · obtain ⟨k, source, rfl⟩ := hstatement
      simp only [discard, recycle]
      split
      · rename_i c _
        refine ⟨fun x hx => ?_, fun x hx => ?_⟩
        · obtain hx' | ⟨rfl, c', hc'⟩ := mem_objects_setConnection hx
          · exact hremove.gone x hx'
          · exact hremove.gone (source, .connection c') hc'
        · obtain hx' | ⟨rfl, c', hc'⟩ := mem_objects_setConnection hx
          · exact hremove.left x hx'
          · obtain hold | ⟨c'', d, -, hold⟩ := hremove.left (source, .connection c') hc'
            · exact .inr ⟨c', _, rfl, hold⟩
            · exact .inr ⟨c'', _, rfl, hold⟩
      · exact ⟨hremove.gone, hremove.left⟩
    · have hsame := objects_discard (s := s.remove name) fun k source heq =>
        hstatement ⟨k, source, heq⟩
      exact ⟨fun x hx => hremove.gone x (hsame ▸ hx), fun x hx => hremove.left x (hsame ▸ hx)⟩

theorem Settled.dropEach (h : s.Settled b 0)
    (hshut : ∀ raw, .raw raw ∈ s.population → raw.isOpen = false)
    (hfree : ∀ k source, .statement k source ∈ s.population → source ∉ l) :
    (l.foldl Session.dropNamed s).Settled b 0 ∧ s.Shrinks l (l.foldl Session.dropNamed s) := by
  induction l generalizing s with
  | nil => exact ⟨h, fun _ _ => List.not_mem_nil, fun x hx => .inl hx⟩
  | cons name l ih =>
    have hname : s.IsDisposable name := by
      refine ⟨?_, fun raw ho => hshut raw (mem_of_object? ho)⟩
      by_contra hborrowed
      simp only [isBorrowed, Bool.not_eq_false] at hborrowed
      obtain ⟨⟨at', o⟩, hm, hsource⟩ := List.any_eq_true.mp hborrowed
      cases o with
      | statement k source =>
        obtain rfl : source = name := by simpa using hsource
        exact hfree k source (mem_population.mpr ⟨at', hm⟩) List.mem_cons_self
      | _ => cases hsource
    have hone := shrinks_dropNamed h.ordered.names_nodup name
    obtain ⟨hrest, hshrinks⟩ := ih (h.dropNamed hname)
      (fun raw hraw => hshut raw (hone.mem_population (by simp) hraw))
      (fun k source hk hmem =>
        hfree k source (hone.mem_population (by simp) hk) (List.mem_cons_of_mem name hmem))
    exact ⟨hrest, hone.trans hshrinks⟩

/-- Whether an object is dropped among the first, before the connection it borrows. -/
def isStatement : Object → Bool
  | .statement .. => true
  | _ => false

def statementNames (s : Session) : List String :=
  (s.objects.filter fun x => isStatement x.2).map Prod.fst

def otherNames (s : Session) : List String :=
  (s.objects.filter fun x => !isStatement x.2).map Prod.fst

theorem namesForDrop_eq (s : Session) : s.namesForDrop = s.statementNames ++ s.otherNames := by
  simp only [namesForDrop, List.partition_eq_filter_filter, List.map_append]
  rfl

theorem mem_namesForDrop {o : Object} (hx : (name, o) ∈ s.objects) : name ∈ s.namesForDrop := by
  rw [namesForDrop_eq, statementNames, otherNames, ← List.map_append]
  refine List.mem_map.mpr ⟨(name, o), List.mem_append.mpr ?_, rfl⟩
  cases hstatement : isStatement o <;> simp [hx, hstatement]

theorem mem_statementNames {source : String} {k : Checkout}
    (hx : (name, .statement k source) ∈ s.objects) : name ∈ s.statementNames :=
  List.mem_map.mpr ⟨_, List.mem_filter.mpr ⟨hx, rfl⟩, rfl⟩

theorem Ordered.source_not_mem {source : String} {k : Checkout} (h : s.Ordered 0)
    (hk : .statement k source ∈ s.population) : source ∉ s.statementNames := by
  intro hsource
  obtain ⟨⟨name, o⟩, hx, rfl⟩ := List.mem_map.mp hsource
  obtain ⟨hx, hstatement⟩ := List.mem_filter.mp hx
  cases o with
  | statement =>
    have ho := Table.lookup_of_mem h.names_nodup hx
    have hconn : s.connection? name = none := by simp [connection?, object?, ho]
    refine h.not_source hconn k ?_
    rw [add_zero]
    exact hk
  | _ => cases hstatement

/-- Statements are dropped first, and no object is left in the end. -/
theorem Settled.dropAll (h : s.Settled b 0)
    (hshut : ∀ raw, .raw raw ∈ s.population → raw.isOpen = false) :
    s.dropAll.Settled b 0 ∧ s.dropAll.objects = [] := by
  obtain ⟨hsettled, hfirst⟩ := h.dropEach hshut fun _ _ => h.ordered.source_not_mem
  have hnone : ∀ k source,
      .statement k source ∉ (s.statementNames.foldl Session.dropNamed s).population := by
    intro k source hk
    obtain ⟨name, hx⟩ := mem_population.mp hk
    obtain hx' | ⟨c, d, hd, -⟩ := hfirst.left _ hx
    · exact hfirst.gone _ hx (mem_statementNames hx')
    · cases hd
  obtain ⟨hend, hlast⟩ := hsettled.dropEach (l := s.otherNames)
    (fun raw hraw => hshut raw (hfirst.mem_population nofun hraw))
    (fun k source hk => absurd hk (hnone k source))
  have hboth := hfirst.trans hlast
  rw [← List.foldl_append, ← namesForDrop_eq] at hend
  rw [← List.foldl_append, ← namesForDrop_eq] at hboth
  refine ⟨hend, List.eq_nil_iff_forall_not_mem.mpr fun x hx => hboth.gone x hx ?_⟩
  obtain hx' | ⟨c, d, -, hc⟩ := hboth.left x hx
  · exact mem_namesForDrop hx'
  · exact mem_namesForDrop hc

end ConnectionPool.Session
