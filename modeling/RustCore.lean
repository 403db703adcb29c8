import RustCore.Word
import RustCore.Hlc.Clock
import RustCore.Hlc.Causality
import RustCore.Hlc.Atomic
import RustCore.GeoSidecar.Geo
import RustCore.GeoSidecar.RoutingTable
import RustCore.GeoSidecar.Routing
import RustCore.GeoSidecar.Metrics
import RustCore.GeoSidecar.Listener
import RustCore.GeoSidecar.Protocol
import RustCore.GeoSidecar.SharedEngine
import RustCore.GeoSidecar.Server
