import ConnectionPool.Description
import ConnectionPool.Session.Connections
import ConnectionPool.Session.Pools

/-!
# Carrying steps out

The effect of each step on a session. A step never ends the session; one that is refused leaves
it as it was.
-/

namespace ConnectionPool.Session

def drop (s : Session) (name : String) : Reply × Session :=
  if !s.inUse name then s.refuse .noSuch
  else if s.isBorrowed name then s.refuse .borrowed
  else (.done, s.dropNamed name)

/-- The description of an object; raw connections have none. -/
def description? (s : Session) (name : String) : Option String :=
  match s.object? name with
  | some (.handle statement) => some statement.description
  | some (.statement checkout _) => some checkout.description
  | some (.cache cache) => some cache.description
  | some (.connection c) => some c.description
  | some (.pool number) => (s.pool? number).map (·.ledger.pool.description)
  | some (.lease pool id) => (s.episodeOf? pool id).map (·.leaseDescription)
  | some (.shared pool id) => (s.episodeOf? pool id).map (·.aliasDescription)
  | _ => none

def describe (s : Session) (name : String) : Reply × Session :=
  match s.description? name with
  | some text => (.text (String.ofList (blurMoments false text.toList)), s)
  | none => s.refuse .noSuch

def setFaults (s : Session) (change : Faults → Faults) : Reply × Session :=
  (.done, { s with engine := { s.engine with faults := change s.engine.faults } })

mutual

/-- Carries one step out. -/
def perform (s : Session) : Step → Reply × Session
  | .failOpens n => s.setFaults fun f => { f with opens := n }
  | .failCloses n => s.setFaults fun f => { f with closes := n }
  | .failSteps n => s.setFaults fun f => { f with steps := n }
  | .grantRows n => s.setFaults fun f => { f with extraRows := n }
  | .createDatabase target => (.done, { s with engine := s.engine.createDatabase target })
  | .delay => (.done, s)
  | .pass nanos => (.done, { s with now := s.now + nanos })
  | .isFinalized id => (.flag (s.engine.isFinalized id), s)
  | .openRaw name target mode => s.openRaw name target mode
  | .prepareRaw raw name sql => s.prepareRaw raw name sql
  | .closeRaw raw => s.closeRaw raw
  | .advance statement => s.advance statement
  | .bind statement value => s.changeStatement statement (·.bind value)
  | .reset statement => s.changeStatement statement (·.reset)
  | .clearBindings statement => s.changeStatement statement (·.clearBindings)
  | .rewind statement => s.changeStatement statement (·.rewind)
  | .finalize statement => s.finalize statement
  | .newCache name settings => s.newCache name settings
  | .takeCached cache name sql owner => s.takeCached cache name sql owner
  | .storeCached cache sql statement => s.storeCached cache sql statement
  | .clearCached cache => s.clearCached cache
  | .reconfigureCached cache settings => s.reconfigureCached cache settings
  | .isCached cache sql => s.isCached cache sql
  | .connect name target settings => s.connect name target settings
  | .wrap raw name settings => s.wrap raw name settings
  | .prepare connection name sql => s.prepare connection name sql
  | .execute connection sql => s.execute connection sql
  | .configure connection settings => s.configure connection settings
  | .clearCache connection => s.clearCache connection
  | .close connection => s.close connection
  | .buildPool name settings script target connections =>
    s.buildPool name settings script target connections
  | .acquire pool name manner => s.acquire pool name manner
  | .tryAcquire pool name => s.tryAcquire pool name
  | .closePool pool => s.closePool pool
  | .clonePool pool name => s.clonePool pool name
  | .poolSettings pool => s.poolSettings pool
  | .wait pool names manner meanwhile =>
    if names.any s.inUse then s.refuse .nameInUse
    else
      match s.poolNamed? pool with
      | none => s.refuse .noSuch
      | some (number, _) =>
        let arrival := s.now
        let (replies, s) := (s.await number).performAll meanwhile
        let (answers, s) := s.answerCallers number arrival manner names
        (.waited replies answers, s.unawait number)
  | .cancel pool handle => s.cancel pool handle
  | .share lease name => s.share lease name
  | .cloneShared shared name => s.cloneShared shared name
  | .intoShared lease name => s.intoShared lease name
  | .exclusive lease => s.exclusive lease
  | .detach lease name => s.detach lease name
  | .drop name => s.drop name
  | .describe name => s.describe name
  | .malformed => s.refuse .malformed

/-- Carries steps out in their order. -/
def performAll (s : Session) : List Step → List Reply × Session
  | [] => ([], s)
  | step :: steps =>
    let (reply, s) := s.perform step
    let (replies, s) := s.performAll steps
    (reply :: replies, s)

end

end ConnectionPool.Session
