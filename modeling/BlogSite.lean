import BlogSite.Main
import BlogSite.Proofs.MarkupBlocks
import BlogSite.Proofs.FrontMatterFences
import BlogSite.Proofs.MarkupRendering
import BlogSite.Proofs.FrontMatterParsing
import BlogSite.Proofs.TemplateCut
import BlogSite.Proofs.TemplateFilling
import BlogSite.Proofs.DiskLookup
import BlogSite.Proofs.RunSteps
import BlogSite.Proofs.PostLoading
import BlogSite.Proofs.PostShelf
import BlogSite.Proofs.DiskTree
import BlogSite.Proofs.DirectoryMaking
import BlogSite.Proofs.DiskChanges
import BlogSite.Proofs.RunOutcomes
import BlogSite.Proofs.StarterPlacing
import BlogSite.Proofs.ProjectStarting
import BlogSite.Proofs.HtmlReading
import BlogSite.Proofs.TagAttributes
import BlogSite.Proofs.TagFilter
import BlogSite.Proofs.DiskAgreement
import BlogSite.Proofs.SteadyBuild
import BlogSite.Proofs.OutputReset
import BlogSite.Proofs.OutputStages
import BlogSite.Proofs.LoadedContent
import BlogSite.Proofs.SitePages
import BlogSite.Proofs.SiteFilling
import BlogSite.Proofs.RepeatedBuilds
import BlogSite.Proofs.BuiltSite
import BlogSite.Proofs.CalendarOrder
import BlogSite.Proofs.InvalidPosts
import BlogSite.Proofs.FailedBuilds
import BlogSite.Proofs.EscapedTexts
import BlogSite.Proofs.ConfinedChanges
import BlogSite.Proofs.PagePaths
import BlogSite.Proofs.ConfinedBuilds
import BlogSite.Proofs.OutputContainment
import BlogSite.Proofs.SourceSurvival
import BlogSite.Proofs.BuildCourse
import BlogSite.Proofs.ShelvedRows
import BlogSite.Proofs.PageAgreement
import BlogSite.Proofs.TrackedPages
import BlogSite.Proofs.PageClashes
import BlogSite.Proofs.SiteCounts
import BlogSite.Proofs.LinkReading
import BlogSite.Proofs.SiteLinks
import BlogSite.Proofs.IsolatedBlogs
import BlogSite.Proofs.PostInsertion
import BlogSite.Proofs.AddedPosts
import BlogSite.Proofs.SkippedItems
import BlogSite.Proofs.TwinBuilds
import BlogSite.Proofs.UnseenItems
import BlogSite.Proofs.BlogListing
import BlogSite.Proofs.MarkupDecoding
import BlogSite.Proofs.SiteUrls
import BlogSite.Proofs.JsonReading
import BlogSite.Proofs.TemplateTexts
import BlogSite.Proofs.PostMetadata
import BlogSite.Proofs.KeyedEntries
import BlogSite.Proofs.AcceptedOptions
import BlogSite.Proofs.SettingsFiles
import BlogSite.Proofs.SettingsPrecedence
import BlogSite.Proofs.SettingsReloading
import BlogSite.Proofs.PostChain
import BlogSite.Proofs.LatestPosts
import BlogSite.Proofs.LineEnds
import BlogSite.Proofs.BareReading
import BlogSite.Proofs.FilterButtons
import BlogSite.Proofs.CardReading
import BlogSite.Proofs.CardDecoding
import BlogSite.Proofs.StarterUnion
import BlogSite.Proofs.RecentDays
import BlogSite.Proofs.SampleSettings
import BlogSite.Proofs.EarlyFailures
import BlogSite.Proofs.AssetShortening
import BlogSite.Proofs.ShortenedBuilds
import BlogSite.Proofs.OpenLists
import BlogSite.Proofs.CanonicalPlaces
import BlogSite.Proofs.RendererCalls
