import PgToolkit.Error
import PgToolkit.Pool.Url

/-!
# Connection pools

A pool is described by the settings of its connections and by the number of connections that it
holds at most. It is described without connecting.
-/

namespace PgToolkit

namespace Pool

def schemes : List (List Char) := ["postgres://".toList, "postgresql://".toList]

/-- Reads a connection string: a URL, or keys and values. -/
def settings? (text : String) : Option (List Setting) :=
  match schemes.find? (·.isPrefixOf text.toList) with
  | some scheme => settingsOfUrl? (text.toList.drop scheme.length)
  | none => settingsOfPairs? text

/-- The number of connections of a pool that is not told otherwise. -/
def defaultSize : Nat := 16

/-- The error of taking a connection out of a pool that was closed. -/
def closedError : Error := .pool "Pool has been closed"

end Pool

/-- The description of a pool. -/
structure PoolConfig where
  settings : List Pool.Setting
  /-- The number of connections that it holds at most. -/
  maxSize : Nat
  deriving DecidableEq, Repr

/-- The description of a pool for a connection string. -/
def PoolConfig.ofString (text : String) (maxSize : Nat) : Except Error PoolConfig :=
  match Pool.settings? text with
  | some settings => .ok ⟨settings, maxSize⟩
  | none => .error (.connection "invalid connection string")

end PgToolkit
