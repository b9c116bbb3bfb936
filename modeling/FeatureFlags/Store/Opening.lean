import FeatureFlags.Store.Error

/-!
Opening a store, which is the first thing that a service does when it starts.

Opening connects to the database and then brings its tables up to date.  The first of the two that
fails is the failure of the opening, and a service listens only if neither does.
-/

namespace FeatureFlags

/-- How the two steps of opening a store end. -/
structure StoreOpening where
  connection : Except DatabaseError Unit
  upgrade : Except MigrationError Unit

namespace StoreOpening

/-- A database whose address cannot be read is never connected to. -/
def ofMalformedAddress : StoreOpening := ⟨.error .malformedAddress, .ok ()⟩

/-- Behind a closed pool of connections the tables cannot be brought up to date. -/
def onClosedPool : StoreOpening := ⟨.ok (), .error (.notRun .poolClosed)⟩

/-- How the opening ends. -/
def outcome (opening : StoreOpening) : Except StoreError Unit := do
  opening.connection.mapError .database
  opening.upgrade.mapError .migration

/-- A service that opens its store in this way listens. -/
def listens (opening : StoreOpening) : Bool := opening.outcome matches .ok ()

end StoreOpening

end FeatureFlags
