import Mathlib.Algebra.Group.Nat.Defs
import Slim.Db.Database

/-!
# The SQLite store

Adding a route as `SqliteDb` carries it out, on the same tables as `Database`. Times are stored in
seconds.
-/

namespace Slim.Db

def storedTime (t : Nat) : Nat := t / 10 ^ 9 * 10 ^ 9

namespace Sqlite

variable (db : Database)

def addRoute (now : Nat) (route : Route) : Update Route :=
  let route := { route with id := route.computeId, lastUpdated := now }
  match db.routes.get? route.id with
  | some _ => (.error (.RouteAlreadyExists route), db)
  | none =>
    (.ok route,
      { db with
        routes := db.routes.put
          { route with createdAt := storedTime route.createdAt, lastUpdated := storedTime now } })

end Sqlite

end Slim.Db
