import AttestedChannel.Config
import AttestedChannel.Simulation.Link

/-!
# Configurations of simulated connectors

A simulated connector expects the values that an honest simulated platform has, and describes itself
by its role.
-/

namespace AttestedChannel.Simulation

/-- The configuration of a simulated connector of a role. -/
def simulatedConfig (r : Role) : Config :=
  { Config.default with
    role := r
    expectedMeasurements := honestValues .basic
    selfDescription := r.name ++ " connector" }

end AttestedChannel.Simulation
