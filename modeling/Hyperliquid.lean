import Hyperliquid.Approval
import Hyperliquid.ReviewedActions
import Hyperliquid.SessionInvariant
import Hyperliquid.OrderScreen
import Hyperliquid.BuilderAddress
import Hyperliquid.RestingOrders
import Hyperliquid.ModifyScreen
import Hyperliquid.PositionScreens
import Hyperliquid.Digest
import Hyperliquid.StoringCommands
import Hyperliquid.Reassembly
import Hyperliquid.Signing
import Hyperliquid.SessionProgress
import Hyperliquid.TpSl
import Hyperliquid.SerializedDocument
import Hyperliquid.Conformance
import Hyperliquid.HistoryIndependence
import Hyperliquid.MetadataAuthenticity
import Hyperliquid.ClientTransfer
import Hyperliquid.BulkElements
import Hyperliquid.FieldOrder
import Hyperliquid.SerializedSize
import Hyperliquid.Recovery
import Hyperliquid.UncutScreens
import Hyperliquid.Answers
import Hyperliquid.Queries
import Hyperliquid.SignatureResponses
import Hyperliquid.KeyUse
import Hyperliquid.Layers
import Hyperliquid.Provenance
import Hyperliquid.Canonical
import Hyperliquid.ClientMetadata
import Hyperliquid.SignatureCost
import Hyperliquid.Conversation
import Hyperliquid.Completion
import Hyperliquid.BatchSeries
import Hyperliquid.ReviewCondition
