import RestFrameworkServices.Dispatch.EdgeErrors
import RestFrameworkServices.ServiceSpecs.FilterChannel
import RestFrameworkServices.ServiceSpecs.SerializerValidator
import RestFrameworkServices.Lib.Walk
import RestFrameworkServices.Serializers.Graph
import RestFrameworkServices.Serializers.Surface
import RestFrameworkServices.Audience.Projection
import RestFrameworkServices.Serializers.WireNames
import RestFrameworkServices.Serializers.Termination
import RestFrameworkServices.Audience.Markings
import RestFrameworkServices.ServiceSpecs.Reads
import RestFrameworkServices.Dispatch.AuthorSplit
import RestFrameworkServices.Dispatch.AuthorValues
import RestFrameworkServices.Dispatch.AuthorPrecedence
import RestFrameworkServices.Views.Mutation
import RestFrameworkServices.Dispatch.AuthorDelivery
import RestFrameworkServices.Viewsets.Permissions
import RestFrameworkServices.Views.SpecValidation
import RestFrameworkServices.JsonSchema.SpreadParameters
import RestFrameworkServices.Dispatch.ErrorChain
import RestFrameworkServices.Dispatch.EdgeArguments
import RestFrameworkServices.Dispatch.FilterData
import RestFrameworkServices.Dispatch.Bundle
import RestFrameworkServices.Lib.Identity
import RestFrameworkServices.Lib.Memo
import RestFrameworkServices.ServiceSpecs.IdentityStores
import RestFrameworkServices.ServiceSpecs.ManyRows
import RestFrameworkServices.Dispatch.RowErrors
import RestFrameworkServices.ServiceSpecs.LayBackTree
import RestFrameworkServices.Dispatch.ValidatorBody
import RestFrameworkServices.Dispatch.UnknownArguments
import RestFrameworkServices.Audience.Affordances
import RestFrameworkServices.Types.SchemaMarkers
import RestFrameworkServices.Types.TypedDictInput
import RestFrameworkServices.Lib.Greedy
import RestFrameworkServices.ServiceSpecs.FragmentKeywords
import RestFrameworkServices.Dispatch.LookupSeeds
import RestFrameworkServices.Dispatch.CsvFilter
import RestFrameworkServices.ServiceSpecs.ReportedSignature
import RestFrameworkServices.Lib.JsonString
import RestFrameworkServices.Lib.Json
import RestFrameworkServices.Lib.JsonBound
import RestFrameworkServices.JsonSchema.PublishableDefault
import RestFrameworkServices.Lib.Eff
import RestFrameworkServices.Dispatch.EdgeRuns
import RestFrameworkServices.Lib.JsonSchema
import RestFrameworkServices.JsonSchema.Choices
import RestFrameworkServices.JsonSchema.Annotations
import RestFrameworkServices.Views.MutationResponse
import RestFrameworkServices.Viewsets.Metadata
import RestFrameworkServices.ServiceSpecs.OfflineContext
import RestFrameworkServices.Dispatch.PermissionRoutes
import RestFrameworkServices.ServiceSpecs.PermissionQuestions
import RestFrameworkServices.JsonSchema.AffordanceSchema
import RestFrameworkServices.JsonSchema.OutputSchema
import RestFrameworkServices.ServiceSpecs.SerializerPresenter
