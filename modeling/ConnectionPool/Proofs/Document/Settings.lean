import ConnectionPool.Document.Settings
import ConnectionPool.Proofs.Document.Text
import Mathlib.Data.List.Nodup
import Mathlib.Data.List.Perm.Basic

/-!
# Settings kept in documents

Settings that are written and read again are the same, and so are settings that were read from any
document. An object settles each field of a record by itself: what is written for it counts, in
whatever place, and where nothing is written the default does.
-/

namespace ConnectionPool

namespace Document

variable {β : Type} {fields : List (String × Document)} {key : String}
  {read? : Document → Option β} {standard x : β}

/-- What the fields of an object make of one field of a record. -/
inductive Settles (fields : List (String × Document)) (key : String)
    (read? : Document → Option β) (standard : β) : β → Prop
  | written {v x} : (key, v) ∈ fields → read? v = some x → Settles fields key read? standard x
  | missing : key ∉ fields.map Prod.fst → Settles fields key read? standard standard

theorem lookup_eq_some (hn : Distinct fields) {v : Document} :
    fields.lookup key = some v ↔ (key, v) ∈ fields := by
  induction fields with
  | nil => simp
  | cons field fields ih =>
    obtain ⟨k, u⟩ := field
    obtain ⟨hk, hn⟩ := List.nodup_cons.mp hn
    by_cases hkey : key = k
    · have hother : (key, v) ∉ fields := by
        intro hm
        have hmem : key ∈ fields.map Prod.fst := List.mem_map_of_mem hm
        exact hk (hkey ▸ hmem)
      rw [List.mem_cons, or_iff_left hother, hkey, List.lookup_cons_self, Option.some.injEq,
        Prod.mk.injEq, and_iff_right rfl, eq_comm]
    · rw [List.lookup_cons, beq_false_of_ne hkey, List.mem_cons, Prod.mk.injEq,
        or_iff_right fun h => hkey h.1]
      exact ih hn

theorem fieldOr?_eq_some (hn : Distinct fields) :
    fieldOr? fields key read? standard = some x ↔ Settles fields key read? standard x := by
  constructor
  · intro h
    rw [fieldOr?] at h
    split at h
    · rename_i hnone
      rw [← Option.some.inj h]
      exact .missing (lookup_eq_none.mp hnone)
    · rename_i v hsome
      exact .written ((lookup_eq_some hn).mp hsome) h
  · rintro (⟨hm, hread⟩ | hkey)
    · rw [fieldOr?, (lookup_eq_some hn).mpr hm]
      exact hread
    · rw [fieldOr?, lookup_eq_none.mpr hkey]

/-- A field is settled unless something else than one of its values is written for it. -/
theorem exists_settles {Value : Document → β → Prop}
    (hread : ∀ v x, read? v = some x ↔ Value v x) (hn : Distinct fields) :
    (∃ x, Settles fields key read? standard x) ↔ ∀ v, (key, v) ∈ fields → ∃ x, Value v x := by
  constructor
  · rintro ⟨x, hx⟩ v hm
    rw [← fieldOr?_eq_some hn, fieldOr?, (lookup_eq_some hn).mpr hm] at hx
    exact ⟨x, (hread v x).mp hx⟩
  · intro hvalid
    by_cases hkey : key ∈ fields.map Prod.fst
    · obtain ⟨⟨k, v⟩, hm, rfl⟩ := List.mem_map.mp hkey
      obtain ⟨x, hvalue⟩ := hvalid v hm
      exact ⟨x, .written hm ((hread v x).mpr hvalue)⟩
    · exact ⟨standard, .missing hkey⟩

theorem count?_eq_some (v : Document) (n : Nat) :
    v.count? = some n ↔ n < UInt64.size ∧ v = .ofNat n := by
  constructor
  · intro h
    cases v with
    | integer value =>
      cases value with
      | ofNat m =>
        simp only [count?, natBelow?, Option.ite_none_right_eq_some, Option.some.injEq] at h
        obtain ⟨hm, rfl⟩ := h
        exact ⟨hm, rfl⟩
      | negSucc m => cases h
    | _ => cases h
  · rintro ⟨hn, rfl⟩
    exact count?_ofNat hn

theorem bool?_eq_some (v : Document) (b : Bool) : v.bool? = some b ↔ v = .bool b := by
  cases v <;> simp [bool?]

theorem nullOr?_of_ne {v : Document} (hv : v ≠ .null) : nullOr? read? v = (read? v).map some := by
  rw [nullOr?]
  exact hv

theorem exists_nullOr? {v : Document} :
    (∃ value, nullOr? read? v = some value) ↔ v = .null ∨ ∃ x, read? v = some x := by
  by_cases hv : v = .null
  · exact ⟨fun _ => .inl hv, fun _ => ⟨none, by rw [hv, nullOr?]⟩⟩
  · rw [nullOr?_of_ne hv, or_iff_right hv]
    simp only [Option.map_eq_some_iff]
    exact ⟨fun ⟨_, x, hx, _⟩ => ⟨x, hx⟩, fun ⟨x, hx⟩ => ⟨_, x, hx, rfl⟩⟩

theorem of_fieldOr? {P : β → Prop} (h : fieldOr? fields key read? standard = some x)
    (hs : P standard) (hread : ∀ v x, read? v = some x → P x) : P x := by
  rw [fieldOr?] at h
  split at h
  · rw [← Option.some.inj h]
    exact hs
  · exact hread _ _ h

theorem count?_lt {v : Document} {n : Nat} (h : v.count? = some n) : n < UInt64.size :=
  ((count?_eq_some v n).mp h).1

/-- How a kind of record is kept in documents: what is written is read back, also from the text, and
so is what was read from any document. An array stands for the object of its items under the first
keys. -/
structure Keeps (keys : List String) (read? : Document → Option β) (write : β → Document)
    (Fits : β → Prop) : Prop where
  written : ∀ s, Fits s → read? (write s) = some s
  text : ∀ s, Fits s → (ofText? (write s).text).bind read? = some s
  fits : ∀ v s, read? v = some s → Fits s
  stable : ∀ v s, read? v = some s → read? (write s) = some s
  array : ∀ items, read? (.array items) =
    if items.length ≤ keys.length then read? (.object (keys.zip items)) else none

/-- How the fields of an object make a record: whether they do depends on the known ones among them,
and each of these settles its part of the record. -/
structure MakesOf (read? : Document → Option β) (Legible : List (String × Document) → Prop)
    (SettledBy : List (String × Document) → β → Prop) : Prop where
  legible : ∀ fields, Distinct fields → ((∃ s, read? (.object fields) = some s) ↔ Legible fields)
  settled : ∀ fields s, Distinct fields → (read? (.object fields) = some s ↔ SettledBy fields s)

/-- A record is read by its fields, and what is read can be written. -/
theorem keeps_of {keys : List String} {write : β → Document} {Fits : β → Prop}
    (hrecord : ∀ v, read? v = (v.record? keys).bind fun fields => read? (.object fields))
    (hread : ∀ fields s, read? (.object fields) = some s → Fits s)
    (hwritten : ∀ s, Fits s → read? (write s) = some s)
    (hplain : ∀ s, Fits s → Plain maxDepth (write s)) : Keeps keys read? write Fits where
  written := hwritten
  text := by
    intro s hs
    rw [ofText?_text (hplain s hs), Option.bind_some]
    exact hwritten s hs
  fits := by
    intro v s h
    rw [hrecord, Option.bind_eq_some_iff] at h
    obtain ⟨fields, -, h⟩ := h
    exact hread fields s h
  stable := by
    intro v s h
    rw [hrecord, Option.bind_eq_some_iff] at h
    obtain ⟨fields, -, h⟩ := h
    exact hwritten s (hread fields s h)
  array := by
    intro items
    rw [hrecord, record?]
    split <;> rfl

end Document

open Document

namespace Duration

/-- The two ways to write a span: an object with both fields, in either order, or a pair. -/
inductive WrittenAs (seconds nanos : Nat) : Document → Prop
  | object {fields} : fields.Perm [("secs", .ofNat seconds), ("nanos", .ofNat nanos)] →
      WrittenAs seconds nanos (.object fields)
  | pair : WrittenAs seconds nanos (.array [.ofNat seconds, .ofNat nanos])

theorem ofDocument?_object {fields : List (String × Document)} {seconds nanos : Nat}
    (hp : fields.Perm [("secs", .ofNat seconds), ("nanos", .ofNat nanos)])
    (hs : seconds < UInt64.size) (hn : nanos < UInt32.size) :
    ofDocument? (.object fields) = ofParts? seconds nanos := by
  have hd : Distinct fields := by
    have hkeys : ["secs", "nanos"].Nodup := by decide
    exact (hp.map Prod.fst).nodup_iff.mpr hkeys
  have hkeys : fields.all (fun field => keys.contains field.1) = true := by
    rw [List.all_eq_true]
    intro field hm
    rw [hp.mem_iff, List.mem_cons, List.mem_singleton] at hm
    obtain rfl | rfl := hm
    · exact List.contains_iff_mem.mpr List.mem_cons_self
    · exact List.contains_iff_mem.mpr (List.mem_cons_of_mem _ List.mem_cons_self)
  have hguard : guard (fields.all fun field => keys.contains field.1) = some () := if_pos hkeys
  have hsecs : fields.lookup "secs" = some (.ofNat seconds) := by
    rw [lookup_eq_some hd, hp.mem_iff]
    exact List.mem_cons_self
  have hnanos : fields.lookup "nanos" = some (.ofNat nanos) := by
    rw [lookup_eq_some hd, hp.mem_iff]
    exact List.mem_cons_of_mem _ List.mem_cons_self
  rw [ofDocument?, record?, Option.bind_eq_bind, Option.bind_some, hguard, hsecs, hnanos]
  simp only [Option.bind_eq_bind, Option.bind_some, count?_ofNat hs, natBelow?_ofNat hn]

theorem WrittenAs.ofDocument?_eq {seconds nanos : Nat} {v : Document}
    (h : WrittenAs seconds nanos v) (hs : seconds < UInt64.size) (hn : nanos < UInt32.size) :
    ofDocument? v = ofParts? seconds nanos := by
  cases h with
  | object hp => exact ofDocument?_object hp hs hn
  | pair => exact ofDocument?_object (.refl _) hs hn

theorem ofParts?_eq_none {seconds nanos : Nat} :
    ofParts? seconds nanos = none ↔ UInt64.size ≤ seconds + nanos / nanosPerSecond := by
  rw [ofParts?]
  split <;> simp <;> omega

theorem totalNanos_ofParts? {seconds nanos : Nat} {d : Duration}
    (h : ofParts? seconds nanos = some d) :
    d.totalNanos = seconds * nanosPerSecond + nanos := by
  rw [ofParts?] at h
  split at h
  · rw [← Option.some.inj h]
    simp only [totalNanos, nanosPerSecond]
    omega
  · cases h

theorem ofParts?_parts (d : Duration) : ofParts? d.seconds d.nanos = some d := by
  have hcarry : d.nanos / nanosPerSecond = 0 := Nat.div_eq_of_lt d.nanos_lt
  have hrest : d.nanos % nanosPerSecond = d.nanos := Nat.mod_eq_of_lt d.nanos_lt
  simp only [ofParts?, hcarry, hrest, Nat.add_zero, d.seconds_lt, dif_pos]

theorem ofDocument?_toDocument (d : Duration) : ofDocument? d.toDocument = some d := by
  have hn : d.nanos < UInt32.size := Nat.lt_trans d.nanos_lt (by decide)
  rw [toDocument, ofDocument?_object (.refl _) d.seconds_lt hn, ofParts?_parts]

theorem plain_toDocument {depth : Nat} (d : Duration) : Plain (depth + 1) d.toDocument := by
  have hn : d.nanos < UInt64.size := Nat.lt_trans d.nanos_lt (by decide)
  exact .pair (by decide) (.number d.seconds_lt) (.number hn)

theorem nullOr?_ofOption (timeout : Option Duration) :
    nullOr? ofDocument? (ofOption toDocument timeout) = some timeout := by
  cases timeout with
  | none => rfl
  | some d =>
    have hd : d.toDocument ≠ .null := nofun
    rw [ofOption, nullOr?_of_ne hd, ofDocument?_toDocument, Option.map_some]

end Duration

namespace OpenMode

theorem ofName?_eq_some {name : String} {mode : OpenMode} :
    ofName? name = some mode ↔ name = mode.name := by
  constructor
  · intro h
    rw [ofName?] at h
    have hname := List.find?_some h
    exact (beq_iff_eq.mp hname).symm
  · rintro rfl
    exact ofName?_name mode

theorem ofDocument?_eq_some (v : Document) (mode : OpenMode) :
    ofDocument? v = some mode ↔ v = .string mode.name ∨ v = .object [(mode.name, .null)] := by
  constructor
  · intro h
    rw [ofDocument?.eq_def] at h
    split at h
    · rw [ofName?_eq_some.mp h]
      exact .inl rfl
    · rw [ofName?_eq_some.mp h]
      exact .inr rfl
    · cases h
  · rintro (rfl | rfl)
    · exact ofName?_name mode
    · exact ofName?_name mode

end OpenMode

namespace CacheSettings

/-- The capacity is a number of 64 bits. -/
def Fits (s : CacheSettings) : Prop := s.capacity < UInt64.size

theorem ofDocument?_fields {fields : List (String × Document)} {s : CacheSettings} :
    ofDocument? (.object fields) = some s ↔
      fieldOr? fields "capacity" count? 32 = some s.capacity ∧
        fieldOr? fields "enabled" bool? true = some s.enabled := by
  simp only [ofDocument?, record?, Option.bind_eq_bind, Option.bind_some, Option.bind_eq_some_iff,
    Option.pure_def, Option.some.injEq]
  constructor
  · rintro ⟨capacity, hcapacity, enabled, henabled, rfl⟩
    exact ⟨hcapacity, henabled⟩
  · rintro ⟨hcapacity, henabled⟩
    exact ⟨_, hcapacity, _, henabled, rfl⟩

structure Legible (fields : List (String × Document)) : Prop where
  capacity : ∀ v, ("capacity", v) ∈ fields → ∃ n < UInt64.size, v = .ofNat n
  enabled : ∀ v, ("enabled", v) ∈ fields → ∃ b, v = .bool b

structure SettledBy (fields : List (String × Document)) (s : CacheSettings) : Prop where
  capacity : Settles fields "capacity" count? 32 s.capacity
  enabled : Settles fields "enabled" bool? true s.enabled

theorem makesOf : MakesOf ofDocument? Legible SettledBy := by
  have hsettled (fields s) (hn : Distinct fields) :
      ofDocument? (.object fields) = some s ↔ SettledBy fields s := by
    rw [ofDocument?_fields, fieldOr?_eq_some hn, fieldOr?_eq_some hn]
    exact ⟨fun ⟨h₁, h₂⟩ => ⟨h₁, h₂⟩, fun ⟨h₁, h₂⟩ => ⟨h₁, h₂⟩⟩
  refine ⟨fun fields hn => ⟨?_, ?_⟩, hsettled⟩
  · rintro ⟨s, h⟩
    obtain ⟨hcapacity, henabled⟩ := (hsettled fields s hn).mp h
    exact ⟨(exists_settles count?_eq_some hn).mp ⟨_, hcapacity⟩,
      (exists_settles bool?_eq_some hn).mp ⟨_, henabled⟩⟩
  · rintro ⟨hcapacity, henabled⟩
    obtain ⟨capacity, hcapacity⟩ := (exists_settles count?_eq_some hn).mpr hcapacity
    obtain ⟨enabled, henabled⟩ := (exists_settles bool?_eq_some hn).mpr henabled
    exact ⟨⟨capacity, enabled⟩, (hsettled fields _ hn).mpr ⟨hcapacity, henabled⟩⟩

theorem plain_toDocument {depth : Nat} {s : CacheSettings} (hs : s.Fits) :
    Plain (depth + 1) s.toDocument :=
  .pair (by decide) (.number hs) .bool

theorem keeps : Keeps keys ofDocument? toDocument Fits := by
  apply keeps_of
  · intro v
    rw [ofDocument?]
    cases v.record? keys <;> rfl
  · intro fields s h
    obtain ⟨hcapacity, -⟩ := ofDocument?_fields.mp h
    exact of_fieldOr? (P := (· < UInt64.size)) hcapacity (by decide) fun _ _ => count?_lt
  · intro s hs
    exact ofDocument?_fields.mpr ⟨count?_ofNat hs, rfl⟩
  · exact fun s hs => plain_toDocument hs

end CacheSettings

namespace ConnectionSettings

def Fits (s : ConnectionSettings) : Prop := s.statementCache.Fits

theorem ofDocument?_fields {fields : List (String × Document)} {s : ConnectionSettings} :
    ofDocument? (.object fields) = some s ↔
      fieldOr? fields "open_mode" OpenMode.ofDocument? .openOrCreate = some s.openMode ∧
        fieldOr? fields "statement_cache" CacheSettings.ofDocument? {} =
          some s.statementCache := by
  simp only [ofDocument?, record?, Option.bind_eq_bind, Option.bind_some, Option.bind_eq_some_iff,
    Option.pure_def, Option.some.injEq]
  constructor
  · rintro ⟨mode, hmode, cache, hcache, rfl⟩
    exact ⟨hmode, hcache⟩
  · rintro ⟨hmode, hcache⟩
    exact ⟨_, hmode, _, hcache, rfl⟩

structure Legible (fields : List (String × Document)) : Prop where
  openMode : ∀ v, ("open_mode", v) ∈ fields →
    ∃ mode : OpenMode, v = .string mode.name ∨ v = .object [(mode.name, .null)]
  statementCache : ∀ v, ("statement_cache", v) ∈ fields → ∃ s, CacheSettings.ofDocument? v = some s

structure SettledBy (fields : List (String × Document)) (s : ConnectionSettings) : Prop where
  openMode : Settles fields "open_mode" OpenMode.ofDocument? .openOrCreate s.openMode
  statementCache :
    Settles fields "statement_cache" CacheSettings.ofDocument? {} s.statementCache

theorem makesOf : MakesOf ofDocument? Legible SettledBy := by
  have hsettled (fields s) (hn : Distinct fields) :
      ofDocument? (.object fields) = some s ↔ SettledBy fields s := by
    rw [ofDocument?_fields, fieldOr?_eq_some hn, fieldOr?_eq_some hn]
    exact ⟨fun ⟨h₁, h₂⟩ => ⟨h₁, h₂⟩, fun ⟨h₁, h₂⟩ => ⟨h₁, h₂⟩⟩
  refine ⟨fun fields hn => ⟨?_, ?_⟩, hsettled⟩
  · rintro ⟨s, h⟩
    obtain ⟨hmode, hcache⟩ := (hsettled fields s hn).mp h
    exact ⟨(exists_settles OpenMode.ofDocument?_eq_some hn).mp ⟨_, hmode⟩,
      (exists_settles (fun _ _ => Iff.rfl) hn).mp ⟨_, hcache⟩⟩
  · rintro ⟨hmode, hcache⟩
    obtain ⟨mode, hmode⟩ := (exists_settles OpenMode.ofDocument?_eq_some hn).mpr hmode
    obtain ⟨cache, hcache⟩ := (exists_settles (fun _ _ => Iff.rfl) hn).mpr hcache
    exact ⟨⟨mode, cache⟩, (hsettled fields _ hn).mpr ⟨hmode, hcache⟩⟩

theorem keeps : Keeps keys ofDocument? toDocument Fits := by
  apply keeps_of
  · intro v
    rw [ofDocument?]
    cases v.record? keys <;> rfl
  · intro fields s h
    obtain ⟨-, hcache⟩ := ofDocument?_fields.mp h
    have hstandard : ({} : CacheSettings).Fits := by
      rw [CacheSettings.Fits]
      decide
    exact of_fieldOr? (P := CacheSettings.Fits) hcache hstandard CacheSettings.keeps.fits
  · intro s hs
    exact ofDocument?_fields.mpr
      ⟨OpenMode.ofName?_name s.openMode, CacheSettings.keeps.written _ hs⟩
  · exact fun s hs => .pair (by decide) .string (CacheSettings.plain_toDocument hs)

end ConnectionSettings

namespace PoolSettings

/-- The counts are numbers of 64 bits. -/
def Fits (s : PoolSettings) : Prop :=
  s.minConnections < UInt64.size ∧ s.maxConnections < UInt64.size

theorem ofDocument?_fields {fields : List (String × Document)} {s : PoolSettings} :
    ofDocument? (.object fields) = some s ↔
      fieldOr? fields "min_connections" count? 0 = some s.minConnections ∧
        fieldOr? fields "max_connections" count? 10 = some s.maxConnections ∧
        fieldOr? fields "connection_timeout" (nullOr? Duration.ofDocument?) none =
          some s.connectionTimeout := by
  simp only [ofDocument?, record?, Option.bind_eq_bind, Option.bind_some, Option.bind_eq_some_iff,
    Option.pure_def, Option.some.injEq]
  constructor
  · rintro ⟨least, hleast, most, hmost, timeout, htimeout, rfl⟩
    exact ⟨hleast, hmost, htimeout⟩
  · rintro ⟨hleast, hmost, htimeout⟩
    exact ⟨_, hleast, _, hmost, _, htimeout, rfl⟩

structure Legible (fields : List (String × Document)) : Prop where
  minConnections : ∀ v, ("min_connections", v) ∈ fields → ∃ n < UInt64.size, v = .ofNat n
  maxConnections : ∀ v, ("max_connections", v) ∈ fields → ∃ n < UInt64.size, v = .ofNat n
  connectionTimeout : ∀ v, ("connection_timeout", v) ∈ fields →
    v = .null ∨ ∃ d, Duration.ofDocument? v = some d

structure SettledBy (fields : List (String × Document)) (s : PoolSettings) : Prop where
  minConnections : Settles fields "min_connections" count? 0 s.minConnections
  maxConnections : Settles fields "max_connections" count? 10 s.maxConnections
  connectionTimeout :
    Settles fields "connection_timeout" (nullOr? Duration.ofDocument?) none s.connectionTimeout

theorem makesOf : MakesOf ofDocument? Legible SettledBy := by
  have hsettled (fields s) (hn : Distinct fields) :
      ofDocument? (.object fields) = some s ↔ SettledBy fields s := by
    rw [ofDocument?_fields, fieldOr?_eq_some hn, fieldOr?_eq_some hn, fieldOr?_eq_some hn]
    exact ⟨fun ⟨h₁, h₂, h₃⟩ => ⟨h₁, h₂, h₃⟩, fun ⟨h₁, h₂, h₃⟩ => ⟨h₁, h₂, h₃⟩⟩
  refine ⟨fun fields hn => ⟨?_, ?_⟩, hsettled⟩
  · rintro ⟨s, h⟩
    obtain ⟨hleast, hmost, htimeout⟩ := (hsettled fields s hn).mp h
    refine ⟨(exists_settles count?_eq_some hn).mp ⟨_, hleast⟩,
      (exists_settles count?_eq_some hn).mp ⟨_, hmost⟩, fun v hm => ?_⟩
    obtain ⟨timeout, hread⟩ :=
      (exists_settles (fun _ _ => Iff.rfl) hn).mp ⟨_, htimeout⟩ v hm
    exact exists_nullOr?.mp ⟨timeout, hread⟩
  · rintro ⟨hleast, hmost, htimeout⟩
    obtain ⟨least, hleast⟩ := (exists_settles count?_eq_some hn).mpr hleast
    obtain ⟨most, hmost⟩ := (exists_settles count?_eq_some hn).mpr hmost
    obtain ⟨timeout, htimeout⟩ := (exists_settles (fun _ _ => Iff.rfl) hn).mpr fun v hm =>
      exists_nullOr?.mpr (htimeout v hm)
    exact ⟨⟨least, most, timeout⟩, (hsettled fields _ hn).mpr ⟨hleast, hmost, htimeout⟩⟩

theorem keeps : Keeps keys ofDocument? toDocument Fits := by
  apply keeps_of
  · intro v
    rw [ofDocument?]
    cases v.record? keys <;> rfl
  · intro fields s h
    obtain ⟨hleast, hmost, -⟩ := ofDocument?_fields.mp h
    exact ⟨of_fieldOr? (P := (· < UInt64.size)) hleast (by decide) fun _ _ => count?_lt,
      of_fieldOr? (P := (· < UInt64.size)) hmost (by decide) fun _ _ => count?_lt⟩
  · intro s hs
    exact ofDocument?_fields.mpr
      ⟨count?_ofNat hs.1, count?_ofNat hs.2, Duration.nullOr?_ofOption s.connectionTimeout⟩
  · intro s hs
    have hkeys : keys.Nodup := by decide
    refine .object hkeys (List.forall_mem_cons.mpr ⟨.number hs.1, List.forall_mem_cons.mpr
      ⟨.number hs.2, List.forall_mem_singleton.mpr ?_⟩⟩)
    cases s.connectionTimeout with
    | none => exact .null
    | some d => exact d.plain_toDocument

end PoolSettings

/-- Settings survive being kept in documents and in their texts, each field is settled by itself,
as no key comes twice in a document that was read, and a time limit is read to the nanosecond unless
its seconds do not fit. -/
theorem settings_kept :
    (Keeps PoolSettings.keys PoolSettings.ofDocument? PoolSettings.toDocument PoolSettings.Fits ∧
      Keeps CacheSettings.keys CacheSettings.ofDocument? CacheSettings.toDocument
        CacheSettings.Fits ∧
      Keeps ConnectionSettings.keys ConnectionSettings.ofDocument? ConnectionSettings.toDocument
        ConnectionSettings.Fits) ∧
    (∀ text v, ofText? text = some v → Regular v) ∧
    (MakesOf PoolSettings.ofDocument? PoolSettings.Legible PoolSettings.SettledBy ∧
      MakesOf CacheSettings.ofDocument? CacheSettings.Legible CacheSettings.SettledBy ∧
      MakesOf ConnectionSettings.ofDocument? ConnectionSettings.Legible
        ConnectionSettings.SettledBy) ∧
    ∀ seconds nanos v, Duration.WrittenAs seconds nanos v → seconds < UInt64.size →
      nanos < UInt32.size →
      (∀ timeout, nullOr? Duration.ofDocument? v = some timeout → ∃ d : Duration,
        timeout = some d ∧ d.totalNanos = seconds * 1000000000 + nanos ∧ d.nanos < 1000000000) ∧
      (nullOr? Duration.ofDocument? v = none ↔
        UInt64.size - 1 < seconds + nanos / 1000000000) := by
  refine ⟨⟨PoolSettings.keeps, CacheSettings.keeps, ConnectionSettings.keeps⟩,
    fun _ _ => regular_of_ofText?,
    ⟨PoolSettings.makesOf, CacheSettings.makesOf, ConnectionSettings.makesOf⟩, ?_⟩
  intro seconds nanos v hwritten hs hn
  have hv : v ≠ .null := by
    rintro rfl
    cases hwritten
  rw [nullOr?_of_ne hv, hwritten.ofDocument?_eq hs hn]
  constructor
  · intro timeout h
    obtain ⟨d, hd, rfl⟩ := Option.map_eq_some_iff.mp h
    exact ⟨d, rfl, Duration.totalNanos_ofParts? hd, d.nanos_lt⟩
  · have hsize : 0 < UInt64.size := by decide
    rw [Option.map_eq_none_iff, Duration.ofParts?_eq_none, nanosPerSecond]
    omega

/-- Half of a record under an unknown key besides, and a span that carries into its seconds. -/
theorem settings_kept_partial :
    CacheSettings.ofDocument? (.object [("color", .null), ("enabled", .bool false)]) =
      some { capacity := 32, enabled := false } ∧
    ∃ d : Duration,
      nullOr? Duration.ofDocument? (.array [.ofNat 1, .ofNat 1500000000]) = some (some d) ∧
        d.totalNanos = 1 * 1000000000 + 1500000000 ∧ d.nanos < 1000000000 := by
  obtain ⟨-, -, ⟨-, hcache, -⟩, hspans⟩ := settings_kept
  constructor
  · refine (hcache.settled _ _ (by rw [Distinct]; decide)).mpr ⟨.missing (by decide), ?_⟩
    exact .written (List.mem_cons_of_mem _ List.mem_cons_self) rfl
  · obtain ⟨hread, hrefused⟩ := hspans 1 1500000000 _ .pair (by decide) (by decide)
    have hfits : ¬ UInt64.size - 1 < 1 + 1500000000 / 1000000000 := by decide
    obtain ⟨timeout, htimeout⟩ := Option.ne_none_iff_exists'.mp fun h => hfits (hrefused.mp h)
    obtain ⟨d, rfl, hexact⟩ := hread timeout htimeout
    exact ⟨d, htimeout, hexact⟩

end ConnectionPool
